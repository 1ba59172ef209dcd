import AutoItServer.Catalogue.Data
import AutoItServer.Signature

/-!
Looking things up in the catalogue.

* `Catalogue.signatures`: the functions as signatures, by lower-cased name.
* `Catalogue.macroDoc?`, `Catalogue.isKeyword`: macros and keywords in any case.
* `Catalogue.libraries`: the standard libraries whose functions the catalogue knows.
-/

namespace AutoItServer

/-- The signature of a function of the catalogue. -/
def BuiltIn.signature (f : BuiltIn) : Signature :=
  { name := f.name.toList
    label := match f.label with
      | some label => label.toList
      | none =>
        f.name.toList ++ '(' :: Text.join ", ".toList (f.params.map fun p => p.1.toList) ++ [')']
    doc := f.doc.toList
    params := OrderedMap.ofList (f.params.map fun p => (p.1.toList, some p.2.toList))
    offset := none }

namespace Catalogue

/-- The functions of the catalogue by lower-cased name. -/
def signatures : SignatureMap :=
  OrderedMap.ofList (functions.map fun f => (Text.lower f.name.toList, f.signature))

/-- The macros with their documentation. -/
def macros : List (Text × Text) :=
  macroDocs.map fun m => (m.1.toList, m.2.toList)

/-- The documentation of a macro. -/
def macroDoc? (name : Text) : Option Text :=
  (macros.find? fun m => Text.sameIgnoringCase m.1 name).map Prod.snd

/-- The keywords. -/
def keywordTexts : List Text :=
  keywords.map String.toList

/-- Whether a word is a keyword. -/
def isKeyword (word : Text) : Bool :=
  keywordTexts.any (Text.sameIgnoringCase · word)

/-- The standard libraries, each once, in the order in which the catalogue first names them. -/
def libraries : List Text :=
  ((functions.filterMap BuiltIn.library).foldl
    (fun seen l => if seen.contains l then seen else seen ++ [l]) []).map String.toList

end Catalogue

end AutoItServer
