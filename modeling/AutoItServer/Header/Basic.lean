import AutoItServer.Text.Case
import AutoItServer.Data.OrderedMap

/-!
Documentation headers: the block of `;` lines above a function.

A header names the function, describes it, gives its syntax line and says something about each
parameter. Parameters are looked up by name in any case.
-/

namespace AutoItServer

/-- What a header says. The keys of `params` are lower-cased names with their `$`. -/
structure Header where
  name : Option Text
  description : Option Text
  syntaxLine : Option Text
  params : OrderedMap Text Text
deriving Repr, DecidableEq

namespace Header

/-- A header that says nothing. -/
def blank : Header :=
  ⟨none, none, none, ∅⟩

/-- Whether neither name nor description nor syntax is given. -/
def isBlank (h : Header) : Bool :=
  h.name.isNone && h.description.isNone && h.syntaxLine.isNone

/-- What the header says about a parameter. -/
def paramDoc? (h : Header) (name : Text) : Option Text :=
  h.params.find? (Text.lower name)

end Header

end AutoItServer
