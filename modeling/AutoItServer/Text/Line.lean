import AutoItServer.Text.Basic

/-!
The lines of a text.

* `Text.rawLines`: the lines with their terminators, whose concatenation is the text
  (`rawLines_flatten`). A text that ends in a line feed has no further empty line.
* `Text.lines`: the same lines numbered, with their byte offsets and without `LF` or `CRLF`. A
  carriage return at the very end of the text is removed as well.
* `Text.strictLines`: the same without offsets, where a carriage return is removed only before a
  line feed.
* `Text.lineAt?`: the line an editor shows at an index. Here a text that ends in a line feed has one
  more line, the empty one.
-/

namespace AutoItServer

/-- One line of a text: its index, the byte offset of its start, and its text without terminator. -/
structure Line where
  index : Nat
  offset : Nat
  text : Text
deriving Repr, DecidableEq

namespace Text

/-- The lines of a text, each with its terminator. -/
def rawLines : Text → List Text
  | [] => []
  | c :: cs =>
    if c = '\n' then [c] :: rawLines cs
    else match rawLines cs with
      | [] => [[c]]
      | raw :: rest => (c :: raw) :: rest

/-- No character is lost: the lines and their terminators give back the text. -/
theorem rawLines_flatten (t : Text) : (rawLines t).flatten = t := by
  induction t with
  | nil => rfl
  | cons c cs ih =>
    rw [rawLines]
    split
    · simp [ih]
    · split
      next h => rw [h] at ih; simp at ih; simp [← ih]
      next raw rest h => rw [h] at ih; simp at ih; simp [ih]

/-- The line without its line feed and a carriage return before that. -/
def dropTerminator (raw : Text) : Text :=
  dropLastIf '\r' (dropLastIf '\n' raw)

/-- Numbers lines from an index and a byte offset on. -/
def numberLines (index offset : Nat) : List Text → List Line
  | [] => []
  | raw :: rest =>
    ⟨index, offset, dropTerminator raw⟩ :: numberLines (index + 1) (offset + byteLength raw) rest

/-- The lines of a text with their indices and byte offsets. -/
def lines (t : Text) : List Line :=
  numberLines 0 0 (rawLines t)

/-- The lines of a text, where only `LF` and `CRLF` are removed. -/
def strictLines (t : Text) : List Text :=
  (rawLines t).map fun raw =>
    if raw.getLast? = some '\n' then dropTerminator raw else raw

/-- The byte offset of the start of line `n`, and the text from there on. Each line feed starts a
new line, so a text always has one line more than it has line feeds. -/
def lineStart? : Nat → Text → Option (Nat × Text)
  | 0, t => some (0, t)
  | _ + 1, [] => none
  | n + 1, c :: cs =>
    (lineStart? (if c = '\n' then n else n + 1) cs).map fun (offset, rest) =>
      (c.utf8Size + offset, rest)

/-- The first line of a text, without its terminator. -/
def firstLine (t : Text) : Text :=
  dropLastIf '\r' (t.takeWhile (· ≠ '\n'))

/-- The line at an index, without its terminator. -/
def lineAt? (n : Nat) (t : Text) : Option Text :=
  (lineStart? n t).map fun (_, rest) => firstLine rest

end Text

end AutoItServer
