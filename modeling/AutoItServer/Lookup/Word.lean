import AutoItServer.Text.Class

/-!
The word under a cursor.
-/

namespace AutoItServer

/-- A word of a line: the byte offsets of its ends and its text. -/
structure Word where
  start : Nat
  stop : Nat
  text : Text
deriving Repr, DecidableEq

namespace Word

/-- The marks that may start a word: `$` of a variable and `@` of a macro. -/
def isSigil (c : Char) : Bool :=
  c == '$' || c == '@'

/-- The word between two parts of a line. The identifier characters around the cut belong to it, and
a sigil directly before them; a sigil alone is no word. -/
def between? (before following : Text) : Option Word :=
  let left := (before.reverse.takeWhile isIdentifier).reverse
  let right := following.takeWhile isIdentifier
  let head := before.take (before.length - left.length)
  let sigil := match head.getLast? with
    | some c => if isSigil c then [c] else []
    | none => []
  let body := left ++ right
  if body.isEmpty then none
  else
    let text := sigil ++ body
    let start := Text.byteLength head - Text.byteLength sigil
    some ⟨start, start + Text.byteLength text, text⟩

/-- The word at a byte column of a line. A cursor on a sigil counts as behind it; a column inside a
character gives no word. -/
def at? (line : Text) (column : Nat) : Option Word :=
  match Text.splitAtByte? (min column (Text.byteLength line)) line with
  | none => none
  | some (before, c :: following) =>
    if isSigil c then between? (before ++ [c]) following else between? before (c :: following)
  | some (before, []) => between? before []

end Word

end AutoItServer
