import AutoItServer.Source.Comment

/-!
Variables in a line.

A line is read as code, strings and a comment. A quote opens a string only if the same quote follows
before the end of the line; any other quote is an ordinary character.

* `Variable.findAll`: the `$` names in the code of a line with their byte offsets.
* `Variable.find?`: the first occurrence of one name in the code of a line, by simple case folding,
  where the name ends at a word boundary.
-/

namespace AutoItServer

namespace Variable

/-- What the next character belongs to. -/
inductive Mode where
  | code
  | string (quote : Char)
  | comment
deriving Repr, DecidableEq

/-- Whether a string is closed before the line ends. -/
def closes (quote : Char) : Text → Bool
  | [] => false
  | c :: cs => c == quote || (c != '\r' && c != '\n' && closes quote cs)

/-- The mode after a character `c` that `rest` follows. -/
def Mode.next (mode : Mode) (c : Char) (rest : Text) : Mode :=
  match mode with
  | .code => if isQuote c && closes c rest then .string c else if c = ';' then .comment else .code
  | .string q => if c = q then .code else .string q
  | .comment => if c = '\n' then .code else .comment

/-- The name at the start of a text: `$` and the word characters after it, of which there is at
least one. -/
def nameHere? : Text → Option Text
  | '$' :: rest =>
    let word := rest.takeWhile isWord
    if word.isEmpty then none else some ('$' :: word)
  | _ => none

/-- The names in a text that starts at a byte offset in some mode. -/
def findFrom (mode : Mode) (offset : Nat) : Text → List (Nat × Text)
  | [] => []
  | c :: cs =>
    let more := findFrom (mode.next c cs) (offset + c.utf8Size) cs
    match if mode = .code then nameHere? (c :: cs) else none with
    | some name => (offset, name) :: more
    | none => more

/-- The variables in the code of a line, with their byte offsets. -/
def findAll (line : Text) : List (Nat × Text) :=
  findFrom .code 0 line

/-! ### Looking for one name -/

/-- Whether the end of `name`, read after the character `before`, is a word boundary with respect to
what follows. -/
def boundaryAfter (before : Option Char) (name rest : Text) : Bool :=
  let last := name.getLast?.or before
  last.any isWord != rest.head?.any isWord

/-- Whether a name stands at the start of a text and ends at a word boundary. The spelling in the
text decides on the boundary. -/
def nameAt (name : Text) (before : Option Char) (t : Text) : Bool :=
  match Text.afterFolded? name t with
  | some rest => boundaryAfter before (t.take name.length) rest
  | none => false

/-- The first place of a name in a text that starts at a byte offset in some mode. A string or a
comment that starts at a place is read first. `fresh` is false directly after a string or a comment,
where the empty name does not count. -/
def findNameFrom (name : Text) (mode : Mode) (fresh : Bool) (before : Option Char) (offset : Nat) :
    Text → Option Nat
  | [] =>
    if mode = .code && nameAt name before [] && (fresh || !name.isEmpty) then some offset
    else none
  | c :: cs =>
    let mode' := mode.next c cs
    if mode = .code && mode' = .code && nameAt name before (c :: cs) &&
      (fresh || !name.isEmpty) then
      some offset
    else
      findNameFrom name mode' (mode = .code) (some c) (offset + c.utf8Size) cs

/-- The byte offset of the first occurrence of a name in the code of a line. Names of every length
are looked for; a search by regular expressions, which have a greatest size, finds nothing for a
name of many thousand characters. -/
def find? (name line : Text) : Option Nat :=
  findNameFrom name .code true none 0 line

end Variable

end AutoItServer
