/-!
Text as a list of characters, measured in UTF-8 bytes and in UTF-16 units.

* `Text.byteLength`, `Text.units`: the two lengths. Offsets in a text count bytes, columns shown to
  an editor count units.
* `Text.splitAtByte?`: the two parts of a text at a byte offset, if the offset is a character
  boundary.
* `Text.takeBytes`: the longest beginning that fits into a number of bytes, so that an offset inside
  a character goes back to the start of that character.
-/

namespace AutoItServer

/-- A text is the list of its characters. -/
abbrev Text := List Char

/-- The number of UTF-16 units of a character: two outside the basic plane. -/
def charUnits (c : Char) : Nat :=
  if c.toNat < 0x10000 then 1 else 2

/-- The apostrophe, which delimits strings beside the double quote. -/
def apostrophe : Char := '\x27'

/-- The double quote. -/
def doubleQuote : Char := '"'

/-- The two characters that open and close a string. -/
def isQuote (c : Char) : Bool :=
  c == doubleQuote || c == apostrophe

namespace Text

/-- The length in UTF-8 bytes. -/
def byteLength : Text → Nat
  | [] => 0
  | c :: cs => c.utf8Size + byteLength cs

/-- The length in UTF-16 units. -/
def units : Text → Nat
  | [] => 0
  | c :: cs => charUnits c + units cs

@[simp] theorem byteLength_nil : byteLength [] = 0 := rfl

@[simp] theorem byteLength_cons (c : Char) (t : Text) :
    byteLength (c :: t) = c.utf8Size + byteLength t := rfl

@[simp] theorem byteLength_append (s t : Text) :
    byteLength (s ++ t) = byteLength s + byteLength t := by
  induction s with
  | nil => simp only [List.nil_append, byteLength_nil, Nat.zero_add]
  | cons c s ih => simp [ih, Nat.add_assoc]

/-- The two parts of a text at a byte offset; `none` past the end and inside a character. -/
def splitAtByte? : Nat → Text → Option (Text × Text)
  | 0, t => some ([], t)
  | _ + 1, [] => none
  | n + 1, c :: cs =>
    if c.utf8Size ≤ n + 1 then
      (splitAtByte? (n + 1 - c.utf8Size) cs).map fun (a, b) => (c :: a, b)
    else none

/-- The longest beginning of at most `n` bytes. -/
def takeBytes (n : Nat) : Text → Text
  | [] => []
  | c :: cs => if c.utf8Size ≤ n then c :: takeBytes (n - c.utf8Size) cs else []

/-- What follows the longest beginning of at most `n` bytes. -/
def dropBytes (n : Nat) : Text → Text
  | [] => []
  | c :: cs => if c.utf8Size ≤ n then dropBytes (n - c.utf8Size) cs else c :: cs

theorem takeBytes_append_dropBytes (n : Nat) (t : Text) : takeBytes n t ++ dropBytes n t = t := by
  induction t generalizing n with
  | nil => rfl
  | cons c cs ih =>
    simp only [takeBytes, dropBytes]
    split <;> simp [ih]

/-- The text without its last character, if that is `c`; otherwise the text. -/
def dropLastIf (c : Char) (t : Text) : Text :=
  if t.getLast? = some c then t.dropLast else t

/-- What follows a beginning, if the text starts with it. -/
def after? : Text → Text → Option Text
  | [], t => some t
  | _ :: _, [] => none
  | p :: ps, c :: cs => if p = c then after? ps cs else none

/-- Whether a text stands somewhere inside another. -/
def occursIn (part : Text) : Text → Bool
  | [] => part.isEmpty
  | c :: cs => part.isPrefixOf (c :: cs) || occursIn part cs

/-- The parts of a text between the occurrences of a character: one more than there are
occurrences. -/
def splitOnChar (sep : Char) : Text → List Text
  | [] => [[]]
  | c :: cs =>
    if c = sep then [] :: splitOnChar sep cs
    else match splitOnChar sep cs with
      | [] => [[c]]
      | part :: parts => (c :: part) :: parts

/-- The order of texts by their characters. -/
def le : Text → Text → Bool
  | [], _ => true
  | _ :: _, [] => false
  | c :: cs, d :: ds => c.toNat < d.toNat || (c == d && le cs ds)

/-- The texts one after another, with a separator between two of them. -/
def join (sep : Text) : List Text → Text
  | [] => []
  | [t] => t
  | t :: ts => t ++ sep ++ join sep ts

/-- The decimal digits of a number. -/
def ofNat (n : Nat) : Text :=
  Nat.toDigits 10 n

end Text

end AutoItServer
