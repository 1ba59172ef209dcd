import AutoItServer.Source.Comment

/-!
The extent of a function.

A function goes from its first line to the next `EndFunc` at the start of a line. Functions do not
nest: if another header stands in between, the function has no end.

* `Extent.endFunc?`: the length up to the first `EndFunc` at the start of a line.
* `Extent.length?`: the length of the function at the start of a text.
* `Extent.functionEnd?`: the offset at which a function ends that starts at an offset.
-/

namespace AutoItServer

namespace Extent

/-- The length of `EndFunc` and the tabs and spaces before it, if they start the text and the word
ends there. -/
def endFuncHere? (t : Text) : Option Nat :=
  match Text.afterFolded? "endfunc".toList (t.dropWhile isIndent) with
  | some rest =>
    if Text.endsWord rest then some (Text.byteLength t - Text.byteLength rest) else none
  | none => none

/-- The length up to and with the first `EndFunc` at the start of a line. `lineStart` says whether
the text itself starts a line. -/
def endFunc? (lineStart : Bool) : Text → Option Nat
  | [] => none
  | c :: cs =>
    match if lineStart then endFuncHere? (c :: cs) else none with
    | some n => some n
    | none => (endFunc? (c == '\n') cs).map (c.utf8Size + ·)

/-- Whether a header starts the text: `Func`, blanks of any kind, and a word character. -/
def headerHere (t : Text) : Bool :=
  match Text.afterFolded? "func".toList (t.dropWhile isIndent) with
  | some (b :: rest) => isBlank b && (Text.trimStart rest).head?.any isWord
  | _ => false

/-- Whether a header stands at the start of some line of the text. -/
def hasHeader (lineStart : Bool) : Text → Bool
  | [] => false
  | c :: cs => (lineStart && headerHere (c :: cs)) || hasHeader (c == '\n') cs

/-- The lines after the first one. -/
def afterFirstLine (t : Text) : Text :=
  (t.dropWhile (· ≠ '\n')).drop 1

/-- The length of the function that starts a text, if it has an end. -/
def length? (t : Text) : Option Nat :=
  match endFunc? true t with
  | none => none
  | some n => if hasHeader true (afterFirstLine (Text.takeBytes n t)) then none else some n

/-- The offset at which the function that starts at an offset ends: `none` if the offset is no
character boundary of the text, `some none` if the function has no end. -/
def functionEnd? (t : Text) (start : Nat) : Option (Option Nat) :=
  (Text.splitAtByte? start t).map fun (_, rest) => (length? rest).map (start + ·)

end Extent

end AutoItServer
