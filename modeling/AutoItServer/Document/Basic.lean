import AutoItServer.Text.Position

/-!
Open documents and their changes.

A change names its range by lines of the document, and a document has more kinds of line ends than a
source text: beside `LF` and `CRLF` also a lone `CR`, the vertical tab, the form feed, `NEL` and the
two Unicode separators. A column stops before `LF` and `CR`.

* `Document.breakLines`: the lines of a document with their ends; there is always a last line, which
  has none.
* `Document.index`: the number of characters before a position.
* `Document.apply`: the document after a change.
-/

namespace AutoItServer

/-- An open document: its text, the version the editor gave it, and how often it was changed. -/
structure Document where
  text : Text
  version : Option Int
  revision : Nat
deriving Repr, DecidableEq

/-- A change: the new text of a range, or of the whole document. -/
structure Change where
  range : Option Range
  text : Text
deriving Repr, DecidableEq

namespace Document

/-- The characters that end a line. -/
def isBreak (c : Char) : Bool :=
  c == '\n' || c == '\r' || c == '\x0b' || c == '\x0c' || c == '\u0085' ||
    c == '\u2028' || c == '\u2029'

/-- The lines of a document, each with its end. -/
def breakLines : Text → List Text
  | [] => [[]]
  | '\r' :: '\n' :: cs => ['\r', '\n'] :: breakLines cs
  | c :: cs =>
    if isBreak c then [c] :: breakLines cs
    else match breakLines cs with
      | [] => [[c]]
      | line :: lines => (c :: line) :: lines

/-- The number of characters of a line before a column. -/
def columnIndex : Nat → Text → Nat
  | _, [] => 0
  | 0, _ :: _ => 0
  | column + 1, c :: cs =>
    if c = '\n' ∨ c = '\r' then 0 else 1 + columnIndex (column + 1 - charUnits c) cs

/-- The number of characters before a position. A line past the end counts as the last one. -/
def index (t : Text) (p : Position) : Nat :=
  let lines := breakLines t
  let n := min p.line (lines.length - 1)
  (lines.take n).flatten.length + columnIndex p.character (lines.getD n [])

/-- A text with the characters from `start` up to `stop` replaced. -/
def splice (t : Text) (start stop : Nat) (new : Text) : Text :=
  t.take start ++ new ++ t.drop stop

/-- The document after a change. A range that ends before it starts is empty. -/
def apply (doc : Document) (change : Change) : Document :=
  let text := match change.range with
    | none => change.text
    | some r =>
      let start := index doc.text r.start
      splice doc.text start (max start (index doc.text r.stop)) change.text
  { doc with text, revision := doc.revision + 1 }

end Document

end AutoItServer
