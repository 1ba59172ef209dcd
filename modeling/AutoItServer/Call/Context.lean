import AutoItServer.Source.Comment

/-!
The call around a cursor.

The text before the cursor is read once from left to right. `Call.Scan` holds the open brackets and
whether a string or a comment is open, `Call.Scan.step` reads one character, and the innermost open
parenthesis gives the function and, by the commas read at its level, the argument.

* `Call.context`: the function and argument index at the end of a text.
* `Call.continuedPrefix`: a line up to a column, with the lines that it continues before it.
-/

namespace AutoItServer

namespace Call

/-- The call at a cursor: the name of the function, if there is one, and the index of the
argument. -/
structure Context where
  function : Option Text
  argument : Nat
deriving Repr, DecidableEq

/-- What the next character belongs to. After the quote that may close a string the scanner waits
for one more character, since a doubled quote is part of the string. -/
inductive Mode where
  | code
  | string (quote : Char)
  | closed (quote : Char)
  | comment
deriving Repr, DecidableEq

/-- An open bracket: whether it is round, the function it belongs to, and the commas read inside
it. -/
structure Bracket where
  round : Bool
  function : Option Text
  commas : Nat
deriving Repr, DecidableEq

/-- The state of the scanner: the characters read, the last one first, the last one that is not
blank, and the open brackets, the innermost first. -/
structure Scan where
  mode : Mode
  read : Text
  last : Option Char
  brackets : List Bracket
deriving Repr, DecidableEq

/-- The words that may stand before a parenthesis without being a function. -/
def nonCallKeywords : List Text :=
  ["and", "case", "elseif", "if", "in", "not", "or", "return", "select", "step", "switch", "then",
    "to", "until", "while", "with"].map String.toList

/-- The identifier, with its `$` if it has one, that ends a text given from its last character on.
Blanks after it do not count, and a keyword is no function. -/
def identifierBefore (read : Text) : Option Text :=
  let head := read.dropWhile isBlank
  let word := head.takeWhile isIdentifier
  if word.isEmpty then none
  else
    let name := match head.drop word.length with
      | '$' :: _ => '$' :: word.reverse
      | _ => word.reverse
    if nonCallKeywords.any (Text.sameIgnoringCase name) then none else some name

namespace Scan

/-- Nothing read yet. -/
def start : Scan :=
  ⟨.code, [], none, []⟩

/-- The brackets after a character of code. A parenthesis directly inside another belongs to the
same function. -/
def bracketsAfter (s : Scan) (c : Char) : List Bracket :=
  match c, s.brackets with
  | '(', bs =>
    let function :=
      if s.last = some '(' then bs.head?.bind Bracket.function else identifierBefore s.read
    ⟨true, function, 0⟩ :: bs
  | '[', bs => ⟨false, none, 0⟩ :: bs
  | ')', bs => bs.drop 1
  | ']', bs => bs.drop 1
  | ',', b :: bs => { b with commas := b.commas + 1 } :: bs
  | _, bs => bs

/-- Reads a character outside strings and comments. -/
def stepCode (s : Scan) (c : Char) : Scan where
  mode := if isQuote c then .string c else if c = ';' then .comment else .code
  read := c :: s.read
  last := if isBlank c then s.last else some c
  brackets := s.bracketsAfter c

/-- Reads one character. -/
def step (s : Scan) (c : Char) : Scan :=
  match s.mode with
  | .code => s.stepCode c
  | .comment => { s with mode := if c = '\n' then .code else .comment, read := c :: s.read }
  | .string q => { s with mode := if c = q then .closed q else .string q, read := c :: s.read }
  | .closed q =>
    if c = q then { s with mode := .string q, read := c :: s.read } else s.stepCode c

/-- The call of the innermost open parenthesis. -/
def context (s : Scan) : Context :=
  match s.brackets.find? Bracket.round with
  | some b => ⟨b.function, b.commas⟩
  | none => ⟨none, 0⟩

end Scan

/-- The call at the end of a text. -/
def context (t : Text) : Context :=
  (t.foldl Scan.step Scan.start).context

/-- Line `n` up to a byte column, after the lines that it continues. Of those the comment and the
`_` are left out, and a space follows each. -/
def continuedPrefix (t : Text) (n column : Nat) : Text :=
  let texts := (Text.lines t).map Line.text
  match texts[n]? with
  | none => []
  | some line =>
    let before := ((texts.take n).reverse.takeWhile Source.continues).reverse
    before.flatMap (fun l => Source.continuedCode l ++ [' ']) ++ Text.takeBytes column line

end Call

end AutoItServer
