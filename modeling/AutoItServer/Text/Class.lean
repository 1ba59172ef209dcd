import AutoItServer.Text.Basic
import AutoItServer.Text.Property.Alphabetic
import AutoItServer.Text.Property.Number
import AutoItServer.Text.Property.Mark

/-!
Character classes and trimming.

* `isBlank`: the Unicode white space; `Text.trim` and its two halves remove it.
* `isAlphanumeric`: letters and numbers of every script; with `_` it makes an identifier character.
* `isWord`: the wider class of word characters, which holds also combining marks, connecting
  punctuation and the two joiners. `Text.wordBoundary` compares two neighbours by it.
* `isIndent`: tab and space, the only blanks that may stand before a directive or a header.
-/

namespace AutoItServer

/-- Unicode white space. -/
def isBlank (c : Char) : Bool :=
  CodeRange.mem c.toNat
    [(0x9, 0xD), (0x20, 0x20), (0x85, 0x85), (0xA0, 0xA0), (0x1680, 0x1680), (0x2000, 0x200A),
      (0x2028, 0x2029), (0x202F, 0x202F), (0x205F, 0x205F), (0x3000, 0x3000)]

/-- Tab or space. -/
def isIndent (c : Char) : Bool :=
  c == '\t' || c == ' '

/-- A decimal digit of any script. -/
def isDecimal (c : Char) : Bool :=
  CodeRange.mem c.toNat decimalTable

/-- A letter or a number of any script. -/
def isAlphanumeric (c : Char) : Bool :=
  CodeRange.mem c.toNat alphabeticTable || CodeRange.mem c.toNat numberTable

/-- A letter or a number of any script, or `_`. -/
def isIdentifier (c : Char) : Bool :=
  isAlphanumeric c || c == '_'

/-- A word character: alphabetic, a mark, a decimal digit, connecting punctuation or a joiner. -/
def isWord (c : Char) : Bool :=
  CodeRange.mem c.toNat alphabeticTable || CodeRange.mem c.toNat markTable ||
    CodeRange.mem c.toNat decimalTable || CodeRange.mem c.toNat connectorTable ||
    CodeRange.mem c.toNat [(0x200C, 0x200D)]

namespace Text

/-- The text from its first character that is not blank. -/
def trimStart (t : Text) : Text :=
  t.dropWhile isBlank

/-- The text up to its last character that is not blank. -/
def trimEnd (t : Text) : Text :=
  (t.reverse.dropWhile isBlank).reverse

/-- The text without blanks at either end. -/
def trim (t : Text) : Text :=
  trimEnd (trimStart t)

/-- Whether a word ends before the text: its first character is no word character. -/
def endsWord : Text → Bool
  | [] => true
  | c :: _ => !isWord c

end Text

end AutoItServer
