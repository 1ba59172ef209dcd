import AutoItServer.Path.Basic

/-!
Resource identifiers, under which an editor knows its documents.

* `Uri.text`: the identifier written out; two identifiers are the same when this is the same.
* `Uri.ofPath?`: the identifier of an absolute path. The bytes of each component are percent-encoded
  as far as they are not plain.
* `Uri.path?`: the path of an identifier without host, percent-decoded.
-/

namespace AutoItServer

/-- The path of an identifier: opaque text, or segments after slashes. -/
inductive UriPath where
  | opaqueText (t : Text)
  | segments (parts : List Text)
deriving Repr, DecidableEq

/-- An identifier, as its parts are written. -/
structure Uri where
  scheme : Text
  authority : Option Text
  path : UriPath
  query : Option Text
  fragment : Option Text
deriving Repr, DecidableEq

namespace Uri

/-! ### Percent-encoding -/

/-- A hexadecimal digit in upper case. -/
def hexUpper (n : Nat) : Char :=
  if n < 10 then Char.ofNat (48 + n) else Char.ofNat (55 + n)

/-- A byte as three characters. -/
def encodeByte (b : UInt8) : Text :=
  ['%', hexUpper (b.toNat / 16), hexUpper (b.toNat % 16)]

/-- Controls and everything outside ASCII are always encoded. -/
def isControl (c : Char) : Bool :=
  c.toNat < 0x20 || 0x7e < c.toNat

/-- The characters that are encoded in a fragment. -/
def inFragment (c : Char) : Bool :=
  isControl c || c == ' ' || c == '"' || c == '<' || c == '>' || c == '\x60'

/-- The characters that are encoded in a path. -/
def inPath (c : Char) : Bool :=
  inFragment c || c == '#' || c == '?' || c == '\x7b' || c == '\x7d'

/-- The characters that are encoded in a component taken from a file path. -/
def inComponent (c : Char) : Bool :=
  inPath c || c == '/' || c == '%' || c == '\\'

/-- The characters that are encoded in a query. A scheme with hosts encodes the apostrophe too. -/
def inQuery (special : Bool) (c : Char) : Bool :=
  isControl c || c == ' ' || c == '"' || c == '#' || c == '<' || c == '>' ||
    (special && c == apostrophe)

/-- Encodes the characters of a class. -/
def encode (must : Char → Bool) (t : Text) : Text :=
  t.flatMap fun c => if must c then (String.utf8EncodeChar c).flatMap encodeByte else [c]

/-- The value of a hexadecimal digit. -/
def hexValue? (c : Char) : Option Nat :=
  if '0' ≤ c && c ≤ '9' then some (c.toNat - 48)
  else if 'a' ≤ c && c ≤ 'f' then some (c.toNat - 87)
  else if 'A' ≤ c && c ≤ 'F' then some (c.toNat - 55)
  else none

/-- The bytes of a text, a percent sign and two digits being one byte. -/
def decodeBytes : Text → List UInt8
  | '%' :: a :: b :: rest =>
    match hexValue? a, hexValue? b with
    | some x, some y => UInt8.ofNat (16 * x + y) :: decodeBytes rest
    | _, _ => '%'.toNat.toUInt8 :: decodeBytes (a :: b :: rest)
  | c :: rest => String.utf8EncodeChar c ++ decodeBytes rest
  | [] => []

/-- The text of bytes. Bytes that are no text are replaced one by one. -/
def textOfBytes (bytes : List UInt8) : Text :=
  match String.fromUTF8? ⟨bytes.toArray⟩ with
  | some s => s.toList
  | none => bytes.map fun b => if b.toNat < 0x80 then Char.ofNat b.toNat else Char.ofNat 0xFFFD

/-! ### Writing out -/

/-- The path of an identifier written out. -/
def pathText : UriPath → Text
  | .opaqueText t => t
  | .segments parts => parts.flatMap fun part => '/' :: part

/-- An identifier written out. -/
def text (u : Uri) : Text :=
  u.scheme ++ ':' ::
    (match u.authority with
      | some a => '/' :: '/' :: a
      | none => []) ++ pathText u.path ++
    (match u.query with
      | some q => '?' :: q
      | none => []) ++
    (match u.fragment with
      | some f => '#' :: f
      | none => [])

/-! ### Files -/

/-- The scheme of files. -/
def fileScheme : Text :=
  "file".toList

/-- The identifier of a file. -/
def ofPath? (p : Path) : Option Uri :=
  if p.isAbsolute then
    let parts := (p.components.drop 1).map fun c => encode inComponent c.text
    some ⟨fileScheme, some [], .segments (if parts.isEmpty then [[]] else parts), none, none⟩
  else none

/-- Whether a text ends in a letter and a colon or bar, as the name of a drive does. -/
def endsInDrive (t : Text) : Bool :=
  match t.reverse with
  | mark :: letter :: _ :: _ => (mark == ':' || mark == '|') && letter.isAlpha
  | _ => false

/-- No host, an empty one of a file, or the local one. -/
def isHostless (u : Uri) : Bool :=
  match u.authority with
  | none => true
  | some a => (a.isEmpty && u.scheme == fileScheme) || a == "localhost".toList

/-- The path of an identifier that has segments, at least one, and no host. -/
def path? (u : Uri) : Option Path :=
  match u.path with
  | .segments parts =>
    if u.isHostless && !parts.isEmpty then
      let t := textOfBytes (parts.flatMap fun part => '/'.toNat.toUInt8 :: decodeBytes part)
      some ⟨if endsInDrive t then t ++ ['/'] else t⟩
    else none
  | .opaqueText _ => none

end Uri

end AutoItServer
