import AutoItServer.Include.Walk
import AutoItServer.Lookup.Variable

/-!
Where a word is defined, as seen from a document.

The document itself comes first, then the files it includes. A variable that is declared nowhere is
defined where it first occurs in the document; a macro is defined nowhere.

* `Lookup.site?`: the place of the definition.
* `Lookup.consulted`: the files whose text is asked for on the way.
-/

namespace AutoItServer

/-- The place of a definition: the file, if it is not the document itself, and the byte offset. -/
structure Site where
  path : Option Path
  offset : Nat
deriving Repr, DecidableEq

namespace Lookup

/-- Whether a word is a variable. -/
def isVariable (word : Text) : Bool :=
  word.head? == some '$'

/-- Whether a word is a macro. -/
def isMacro (word : Text) : Bool :=
  word.head? == some '@'

/-- The definition of a word in one text. -/
def inText? (word t : Text) : Option Nat :=
  if isVariable word then declaration? t word else function? t word

/-- The definition of a word in one file. -/
def inFile? (content : Include.Content) (word : Text) (p : Path) : Option Site :=
  ((content p).bind (inText? word)).map fun offset => ⟨some p, offset⟩

/-- Where a word is defined. -/
def site? (t word : Text) (files : List Path) (content : Include.Content) : Option Site :=
  if isMacro word then none
  else match inText? word t with
    | some offset => some ⟨none, offset⟩
    | none => match files.findSome? (inFile? content word) with
      | some site => some site
      | none =>
        if isVariable word then (firstOccurrence? t word).map fun offset => ⟨none, offset⟩ else none

/-- The files up to the first one that defines the word. -/
def upToDefinition (content : Include.Content) (word : Text) : List Path → List Path
  | [] => []
  | p :: ps => if (inFile? content word p).isSome then [p] else p :: upToDefinition content word ps

/-- The files whose text is asked for when a word is looked up. -/
def consulted (t word : Text) (files : List Path) (content : Include.Content) : List Path :=
  if isMacro word || (inText? word t).isSome then [] else upToDefinition content word files

end Lookup

end AutoItServer
