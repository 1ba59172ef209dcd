import AutoItServer.Text.Basic
import AutoItServer.Text.Property.Cased
import AutoItServer.Text.Property.Lower
import AutoItServer.Text.Property.Fold

/-!
Letter case, in the three ways that the language needs it.

* `Text.sameIgnoringCase`, `Text.afterKeyword?`: equality that forgets the case of ASCII letters
  only.
* `sameFold`, `Text.afterFolded?`: equality by Unicode simple case folding, by which `ſ` counts as
  `s` and the Kelvin sign as `k`.
* `Text.lower`: the full lower case of Unicode. A capital sigma at the end of a word becomes `ς`,
  and `İ` becomes two characters.
-/

namespace AutoItServer

/-- The lower case of an ASCII letter; every other character stays. -/
def asciiLower (c : Char) : Char :=
  if 'A' ≤ c && c ≤ 'Z' then Char.ofNat (c.toNat + 32) else c

/-- Equality up to the case of ASCII letters. -/
def sameAscii (a b : Char) : Bool :=
  asciiLower a == asciiLower b

/-- Equality up to Unicode simple case folding. -/
def sameFold (a b : Char) : Bool :=
  CodeRange.image foldTable a == CodeRange.image foldTable b

/-- Whether a capital sigma ends a word: read away from it, the first character that is not ignored
has case. -/
def meetsCased : Text → Bool
  | [] => false
  | c :: cs =>
    if CodeRange.mem c.toNat caseIgnorableTable then meetsCased cs
    else CodeRange.mem c.toNat casedTable

namespace Text

/-- Every ASCII letter in lower case. -/
def asciiLower (t : Text) : Text :=
  t.map AutoItServer.asciiLower

/-- Equality up to the case of ASCII letters. -/
def sameIgnoringCase (s t : Text) : Bool :=
  asciiLower s == asciiLower t

/-- What follows a keyword, if the text starts with it up to the case of ASCII letters. -/
def afterKeyword? : Text → Text → Option Text
  | [], t => some t
  | _ :: _, [] => none
  | k :: ks, c :: cs => if sameAscii k c then afterKeyword? ks cs else none

/-- What follows a keyword, if the text starts with it up to simple case folding. -/
def afterFolded? : Text → Text → Option Text
  | [], t => some t
  | _ :: _, [] => none
  | k :: ks, c :: cs => if sameFold k c then afterFolded? ks cs else none

/-- The lower case of a text that follows the characters `before`, the nearest first. -/
def lowerFrom (before : Text) : Text → Text
  | [] => []
  | c :: cs =>
    let here : Text :=
      if c = 'Σ' then
        if meetsCased before && !meetsCased cs then ['ς'] else ['σ']
      else if c = 'İ' then ['i', '\u0307']
      else [CodeRange.image lowerTable c]
    here ++ lowerFrom (c :: before) cs

/-- The lower case of a text. -/
def lower (t : Text) : Text :=
  lowerFrom [] t

end Text

end AutoItServer
