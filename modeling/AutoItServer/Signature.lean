import AutoItServer.Function.Definition
import AutoItServer.Function.Parameter
import AutoItServer.Header.Reader

/-!
Signatures: what is shown of a function.

* `Signature.ofDef`: the signature of a definition, with the documentation of the header above it. A
  header that names another function is not used.
* `Signature.ofText`: the signatures of a text by lower-cased name. Of several definitions of one
  name the last one counts, at the place of the first.
-/

namespace AutoItServer

/-- A function as shown: its name, the label with its parameters, its documentation, the parameters
with their documentation, and the byte offset of its definition, which a built-in function does not
have. -/
structure Signature where
  name : Text
  label : Text
  doc : Text
  params : OrderedMap Text (Option Text)
  offset : Option Nat
deriving Repr, DecidableEq

/-- Signatures by the lower-cased name of the function. -/
abbrev SignatureMap := OrderedMap Text Signature

namespace Signature

/-- The name and documentation of the parameter at an index. -/
def paramAt? (s : Signature) (i : Nat) : Option (Text × Option Text) :=
  s.params.entries[i]?

/-- The header above a definition, unless it names another function. -/
def headerOf? (lines : List Text) (d : FunctionDef) : Option Header :=
  (Header.above? lines d.line).filter fun h => h.name.all (Text.sameIgnoringCase · d.name)

/-- The documentation of a function without description says which file it is in. -/
def includedFrom (file : Text) : Text :=
  "Included from ".toList ++ file

/-- The signature of a definition in a file. Of several parameters of one name the last one
counts. -/
def ofDef (lines : List Text) (file : Text) (d : FunctionDef) : Signature :=
  let header := headerOf? lines d
  let entries := Parameter.split d.params
  let params := entries.filterMap Parameter.parse? |>.map fun p =>
    (p.name, header.bind (Header.paramDoc? · p.name))
  { name := d.name
    label := d.name ++ '(' :: Text.join ", ".toList entries ++ [')']
    doc := (header.bind Header.description).getD (includedFrom file)
    params := OrderedMap.ofList params
    offset := some d.offset }

/-- The signatures of a text. -/
def ofText (t file : Text) : SignatureMap :=
  let lines := (Text.lines t).map Line.text
  OrderedMap.ofList <| (FunctionDef.findAll t).map fun d => (Text.lower d.name, ofDef lines file d)

/-- The signatures of several layers in one map; a later layer replaces what an earlier one says. -/
def overlay (layers : List SignatureMap) : SignatureMap :=
  layers.foldl OrderedMap.overlay ∅

end Signature

end AutoItServer
