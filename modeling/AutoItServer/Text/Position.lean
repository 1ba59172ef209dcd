import AutoItServer.Text.Line

/-!
Editor positions: a line index and a column in UTF-16 units.

* `Text.positionToByte`: the byte offset of a position, at most the end of its line, and the end of
  the text if there is no such line.
* `Text.byteToPosition`: the position of a byte offset; an offset inside a character counts as the
  start of that character.
-/

namespace AutoItServer

/-- A place in a text as an editor names it. -/
structure Position where
  line : Nat
  character : Nat
deriving Repr, DecidableEq

/-- Two positions, of which the second is not part of the range. -/
structure Range where
  start : Position
  stop : Position
deriving Repr, DecidableEq

namespace Position

/-- The position after one more character. -/
def advance (p : Position) (c : Char) : Position :=
  if c = '\n' then ⟨p.line + 1, 0⟩ else ⟨p.line, p.character + charUnits c⟩

/-- Positions in reading order. -/
def le (p q : Position) : Prop :=
  p.line < q.line ∨ p.line = q.line ∧ p.character ≤ q.character

instance : LE Position := ⟨le⟩

end Position

namespace Text

/-- The byte offset of a column of a line; a column past the end gives the length, one inside a
surrogate pair the end of that character. -/
def columnToByte : Nat → Text → Nat
  | _, [] => 0
  | 0, _ :: _ => 0
  | column + 1, c :: cs => c.utf8Size + columnToByte (column + 1 - charUnits c) cs

/-- The byte offset of a position. -/
def positionToByte (p : Position) (t : Text) : Nat :=
  match lineStart? p.line t with
  | none => byteLength t
  | some (offset, rest) => offset + columnToByte p.character (firstLine rest)

/-- The position of a byte offset. -/
def byteToPosition (offset : Nat) (t : Text) : Position :=
  (takeBytes offset t).foldl Position.advance ⟨0, 0⟩

/-- The positions of two byte offsets. -/
def byteRange (start stop : Nat) (t : Text) : Range :=
  ⟨byteToPosition start t, byteToPosition stop t⟩

end Text

end AutoItServer
