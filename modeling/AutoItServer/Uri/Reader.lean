import AutoItServer.Uri.Basic

/-!
Reading a resource identifier: `Uri.parse?`.

The text is read leniently: blanks around it and tabs and line ends in it are left out, the scheme
may be in any case, dot segments are resolved, and characters that may not stand as they are get
encoded. A text without scheme is no identifier.
-/

namespace AutoItServer

namespace Uri

/-! ### Segments -/

/-- Whether a segment is one dot, written out or encoded. -/
def isDot (segment : Text) : Bool :=
  segment == ['.'] || segment.map asciiLower == "%2e".toList

/-- Whether a segment is two dots, each written out or encoded. -/
def isDoubleDot (segment : Text) : Bool :=
  let t := segment.map asciiLower
  t == "..".toList || t == ".%2e".toList || t == "%2e.".toList || t == "%2e%2e".toList

/-- Whether a segment is the name of a drive. -/
def isDrive : Text → Bool
  | [letter, mark] => letter.isAlpha && (mark == ':' || mark == '|')
  | _ => false

/-- The segments without the last one. Of a file the name of a drive stays. -/
def shorten (isFile : Bool) (parts : List Text) : List Text :=
  match parts with
  | [part] => if isFile && isDrive part && part.getLast? == some ':' then parts else []
  | _ => parts.dropLast

/-- Adds segments, given as they are written, to those read so far. A dot at the end leaves an empty
segment, so that the path still ends in a slash. -/
def addSegments (isFile : Bool) (done : List Text) : List Text → List Text
  | [] => done
  | part :: rest =>
    let segment := encode inPath part
    if isDoubleDot segment then
      let shorter := shorten isFile done
      addSegments isFile (if rest.isEmpty then shorter ++ [[]] else shorter) rest
    else if isDot segment then
      addSegments isFile (if rest.isEmpty then done ++ [[]] else done) rest
    else
      let segment := match isFile && done.isEmpty && isDrive segment, segment with
        | true, letter :: _ => [letter, ':']
        | _, _ => segment
      addSegments isFile (done ++ [segment]) rest

/-- The parts between slashes; a backslash is a slash if `both` is set. -/
def splitSlashes (both : Bool) (t : Text) : List Text :=
  Text.splitOnChar '/' (if both then t.map fun c => if c = '\\' then '/' else c else t)

/-- The segments of a path that starts after its first slash. Of a file the empty ones at the start
are left out. -/
def segmentsOf (isFile special : Bool) (t : Text) : List Text :=
  let parts := addSegments isFile [] (splitSlashes special t)
  if isFile then
    match parts.dropWhile List.isEmpty with
    | [] => [[]]
    | parts => parts
  else parts

/-! ### The parts of an identifier -/

/-- A text up to the first of some characters, and the rest from there on. -/
def upTo (stop : Char → Bool) (t : Text) : Text × Text :=
  (t.takeWhile (!stop ·), t.dropWhile (!stop ·))

/-- The query and the fragment at the end of an identifier. -/
def tailOf (special : Bool) (t : Text) : Option Text × Option Text :=
  let (head, fragment) := upTo (· == '#') t
  let query := match head with
    | '?' :: q => some (encode (inQuery special) q)
    | _ => none
  let fragment := match fragment with
    | '#' :: f => some (encode inFragment f)
    | _ => none
  (query, fragment)

/-- The scheme in lower case and the text after its colon. -/
def schemeOf? (t : Text) : Option (Text × Text) :=
  let isSchemeChar (c : Char) : Bool := c.isAlphanum || c == '+' || c == '-' || c == '.'
  let word := t.takeWhile isSchemeChar
  match word.head?, t.drop word.length with
  | some c, ':' :: rest => if c.isAlpha then some (word.map asciiLower, rest) else none
  | _, _ => none

/-- The schemes that always have a host, beside that of files, each with its usual port. -/
def hostSchemes : List (Text × Text) :=
  [("http", ":80"), ("https", ":443"), ("ws", ":80"), ("wss", ":443"), ("ftp", ":21")].map
    fun (s, port) => (s.toList, port.toList)

/-- Whether a character ends a host. -/
def endsHost (special : Bool) (c : Char) : Bool :=
  c == '/' || c == '?' || c == '#' || (special && c == '\\')

/-- The characters that may not stand in a host. -/
def isHostForbidden (c : Char) : Bool :=
  c == ' ' || c == '<' || c == '>' || c == '^' || c == '|' || c == '%' || c.toNat < 0x20 ||
    c.toNat == 0x7f

/-- A slash, or a backslash where that counts as one. -/
def isSlash (special : Bool) (c : Char) : Bool :=
  c == '/' || (special && c == '\\')

/-- The text after one slash, if there is one. -/
def dropSlash (special : Bool) : Text → Text
  | [] => []
  | c :: cs => if isSlash special c then cs else c :: cs

/-- An identifier from its host and what follows the host. -/
def ofHost? (scheme host rest : Text) (isFile special : Bool) : Option Uri :=
  if host.any isHostForbidden then none
  else
    let (path, tail) := upTo (fun c => c == '?' || c == '#') rest
    let (query, fragment) := tailOf special tail
    let parts :=
      if path.isEmpty && !special then [] else segmentsOf isFile special (dropSlash special path)
    some ⟨scheme, some host, .segments parts, query, fragment⟩

/-- The identifier of a file, from what follows the scheme. -/
def fileOf? (rest : Text) : Option Uri :=
  match rest with
  | a :: b :: rest' =>
    if isSlash true a && isSlash true b then
      let (host, path) := upTo (endsHost true) rest'
      if isDrive host then ofHost? fileScheme [] rest' true true
      else
        let host := host.map asciiLower
        ofHost? fileScheme (if host == "localhost".toList then [] else host) path true true
    else ofHost? fileScheme [] rest true true
  | _ => ofHost? fileScheme [] rest true true

/-- The identifier of a scheme that always has a host. Its usual port is left out. -/
def hostedOf? (scheme port rest : Text) : Option Uri :=
  let (host, path) := upTo (endsHost true) (rest.dropWhile (isSlash true))
  let host := if port.isSuffixOf host then host.take (host.length - port.length) else host
  if host.isEmpty then none else ofHost? scheme (host.map asciiLower) path false true

/-- The identifier of any other scheme. -/
def otherOf? (scheme rest : Text) : Option Uri :=
  match rest with
  | '/' :: '/' :: rest =>
    let (host, path) := upTo (endsHost false) rest
    ofHost? scheme host path false false
  | _ =>
    let (path, tail) := upTo (fun c => c == '?' || c == '#') rest
    let (query, fragment) := tailOf false tail
    match path with
    | '/' :: path => some ⟨scheme, none, .segments (segmentsOf false false path), query, fragment⟩
    | path => some ⟨scheme, none, .opaqueText (encode isControl path), query, fragment⟩

/-- Blanks and controls, which are left out around an identifier. -/
def isEdge (c : Char) : Bool :=
  c.toNat ≤ 0x20

/-- The identifier that a text spells. -/
def parse? (t : Text) : Option Uri :=
  let trimmed := ((t.dropWhile isEdge).reverse.dropWhile isEdge).reverse
  let clean := trimmed.filter fun c => c != '\t' && c != '\n' && c != '\r'
  match schemeOf? clean with
  | none => none
  | some (scheme, rest) =>
    if scheme == fileScheme then fileOf? rest
    else match hostSchemes.find? fun entry => entry.1 == scheme with
      | some (_, port) => hostedOf? scheme port rest
      | none => otherOf? scheme rest

end Uri

end AutoItServer
