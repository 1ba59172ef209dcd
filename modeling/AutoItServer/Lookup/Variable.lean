import AutoItServer.Function.Definition
import AutoItServer.Symbol.Outline

/-!
Where a variable or a function is defined in one text.

* `Lookup.declaration?`: the first occurrence of a variable in a line that declares variables. A
  line declares if it starts with a declaring word, defines a function, or continues such a line.
* `Lookup.firstOccurrence?`: the first occurrence of a variable in the code of any line.
* `Lookup.function?`: the first definition of a function.
-/

namespace AutoItServer

namespace Lookup

/-- Whether a line starts with a declaring word. -/
def startsDeclaration (line : Text) : Bool :=
  match Outline.afterOneOf? ["local", "global", "dim", "static", "const", "enum"]
      (line.dropWhile isIndent) with
  | some rest => Text.endsWord rest
  | none => false

/-- The declaration of a variable in lines of code, the first of which may continue a
declaration. -/
def declarationFrom? (name : Text) (continued : Bool) : List Line → Option Nat
  | [] => none
  | l :: ls =>
    let declares := continued || startsDeclaration l.text || (FunctionDef.head? l.text).isSome
    match if declares then Variable.find? name l.text else none with
    | some column => some (l.offset + column)
    | none => declarationFrom? name (declares && Source.continues l.text) ls

/-- The byte offset of the declaration of a variable. -/
def declaration? (t name : Text) : Option Nat :=
  declarationFrom? name false (Source.codeLines t)

/-- The byte offset of the first occurrence of a variable. -/
def firstOccurrence? (t name : Text) : Option Nat :=
  (Source.codeLines t).findSome? fun l => (Variable.find? name l.text).map (l.offset + ·)

/-- The byte offset of the first definition of a function. -/
def function? (t name : Text) : Option Nat :=
  ((FunctionDef.findAll t).find? fun d => Text.sameIgnoringCase d.name name).map FunctionDef.offset

end Lookup

end AutoItServer
