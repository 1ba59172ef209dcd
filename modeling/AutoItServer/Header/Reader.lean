import AutoItServer.Header.Basic
import AutoItServer.Text.Class

/-!
Reading a header.

A labelled line has the shape `; Label ....: text`. A line without label goes on with the field of
the label before it, unless it starts with `#` or `==`, which end every field.

* `Header.labelled?`: the label and text of a line.
* `Header.paramEntry?`: the parameter and its documentation in a line of the field `Parameters`.
* `Header.read`: the header of a block of lines; `Header.above?`: the header above a line, if there
  is one that says something.
-/

namespace AutoItServer

namespace Header

/-! ### The shape of a line -/

/-- A character of a label: an ASCII letter or a space. -/
def isLabelChar (c : Char) : Bool :=
  c.isAlpha || c == ' '

/-- The label and the text of a labelled line. -/
def labelled? (line : Text) : Option (Text × Text) := do
  let ';' :: rest := line.dropWhile isIndent | none
  let rest := rest.dropWhile isIndent
  let label := rest.takeWhile isLabelChar
  if !(label.head?.any Char.isAlpha) then none
  let '.' :: rest := (rest.drop label.length).dropWhile isIndent | none
  let ':' :: text := (rest.dropWhile (· == '.')).dropWhile isIndent | none
  if text.contains '\n' then none else some (Text.trim label, Text.trim text)

/-- The text of a `;` line without the mark and without blanks around it. -/
def body (line : Text) : Text :=
  match Text.trimStart line with
  | ';' :: rest => Text.trim rest
  | _ => []

/-- The text after qualifiers and the blanks that follow each. -/
def dropQualifiers : Nat → Text → Text
  | 0, t => t
  | fuel + 1, t =>
    let after (word : String) : Option Text :=
      match Text.afterFolded? word.toList t with
      | some (c :: cs) => if isIndent c then some (cs.dropWhile isIndent) else none
      | _ => none
    match (after "byref").or (after "const") with
    | some rest => dropQualifiers fuel rest
    | none => t

/-- The parameter that a text documents, and its documentation: a `$` name, something without a
dash, a dash, and the rest of the line. -/
def paramEntry? (text : Text) : Option (Text × Text) := do
  let '$' :: rest := dropQualifiers text.length text | none
  let name := rest.takeWhile isWord
  if name.isEmpty then none
  let '-' :: doc := (rest.drop name.length).dropWhile (· ≠ '-') | none
  if doc.contains '\n' then none else some ('$' :: name, Text.trim doc)

/-! ### Reading a block -/

/-- The fields of a header. -/
inductive Field where
  | name
  | description
  | syntaxLine
  | parameters
  | other
deriving Repr, DecidableEq

/-- The field of a label, in any case of its letters. -/
def Field.ofLabel (label : Text) : Field :=
  match String.ofList (Text.asciiLower label) with
  | "name" => .name
  | "description" => .description
  | "syntax" => .syntaxLine
  | "parameters" => .parameters
  | _ => .other

/-- Two parts of a field with a space between them, or the one that is not empty. -/
def joinParts (a b : Text) : Text :=
  if b.isEmpty then a else if a.isEmpty then b else a ++ ' ' :: b

/-- What has been read of a header: the field and the parameter that the next line goes on with. -/
structure Progress where
  header : Header
  description : Text
  field : Field
  param : Option Text

/-- Reads the text of a line into the current field. -/
def Progress.take (p : Progress) (isLabelled : Bool) (text : Text) : Progress :=
  match p.field with
  | .name =>
    if isLabelled && !text.isEmpty then { p with header := { p.header with name := some text } }
    else p
  | .syntaxLine =>
    if isLabelled && !text.isEmpty then
      { p with header := { p.header with syntaxLine := some text } }
    else p
  | .description => { p with description := joinParts p.description text }
  | .parameters =>
    match paramEntry? text, p.param with
    | some (name, doc), _ =>
      let key := Text.lower name
      { p with
        header := { p.header with params := p.header.params.insert key doc }
        param := some key }
    | none, some key =>
      { p with header := { p.header with
          params := p.header.params.modify key fun doc => joinParts doc text } }
    | none, none => p
  | .other => p

/-- Reads one line. -/
def Progress.step (p : Progress) (line : Text) : Progress :=
  match labelled? line with
  | some (label, text) => { p with field := .ofLabel label, param := none }.take true text
  | none =>
    let text := body line
    let p := match text with
      | '#' :: _ => { p with field := .other, param := none }
      | '=' :: '=' :: _ => { p with field := .other, param := none }
      | _ => p
    p.take false text

/-- The header in a block of lines. -/
def read (block : List Text) : Header :=
  let p := block.foldl Progress.step ⟨blank, [], .other, none⟩
  if p.description.isEmpty then p.header else { p.header with description := some p.description }

/-- Whether a line is a `;` line. -/
def isCommentLine (line : Text) : Bool :=
  (Text.trimStart line).head? == some ';'

/-- The `;` lines directly above line `n`. -/
def blockAbove (lines : List Text) (n : Nat) : List Text :=
  ((lines.take n).reverse.takeWhile isCommentLine).reverse

/-- The header directly above line `n`, if it gives a name, a description or a syntax line. -/
def above? (lines : List Text) (n : Nat) : Option Header :=
  if n > lines.length then none
  else
    let header := read (blockAbove lines n)
    if header.isBlank then none else some header

end Header

end AutoItServer
