import AutoItServer.Json.Basic
import AutoItServer.Json.Double

/-!
JSON text without spaces: `Json.render`. Members stand in their order, and only quotes, backslashes
and control characters are escaped.
-/

namespace AutoItServer

namespace Json

/-- A digit of a hexadecimal number. -/
def hexDigit (n : Nat) : Char :=
  if n < 10 then Char.ofNat (48 + n) else Char.ofNat (87 + n)

/-- A character inside a string. -/
def escape (c : Char) : Text :=
  if c = '"' then "\\\"".toList
  else if c = '\\' then "\\\\".toList
  else if c = '\x08' then "\\b".toList
  else if c = '\x0c' then "\\f".toList
  else if c = '\n' then "\\n".toList
  else if c = '\r' then "\\r".toList
  else if c = '\t' then "\\t".toList
  else if c.toNat < 0x20 then "\\u00".toList ++ [hexDigit (c.toNat / 16), hexDigit (c.toNat % 16)]
  else [c]

/-- A string with its quotes. -/
def renderString (t : Text) : Text :=
  '"' :: t.flatMap escape ++ ['"']

/-- A whole number. -/
def renderInt : Int → Text
  | .ofNat n => Text.ofNat n
  | .negSucc n => '-' :: Text.ofNat (n + 1)

mutual

/-- The text of a value. -/
def render : Json → Text
  | .null => "null".toList
  | .bool true => "true".toList
  | .bool false => "false".toList
  | .int n => renderInt n
  | .double bits => Double.text bits
  | .str t => renderString t
  | .arr items => '[' :: renderItems items ++ [']']
  | .obj members => '\x7b' :: renderMembers members ++ ['\x7d']

/-- The items of an array with commas between them. -/
def renderItems : List Json → Text
  | [] => []
  | [j] => render j
  | j :: js => render j ++ ',' :: renderItems js

/-- The members of an object with commas between them. -/
def renderMembers : List (Text × Json) → Text
  | [] => []
  | [(key, j)] => renderString key ++ ':' :: render j
  | (key, j) :: ms => renderString key ++ ':' :: render j ++ ',' :: renderMembers ms

end

end Json

end AutoItServer
