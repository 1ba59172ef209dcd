import AutoItServer.Source.Comment

/-!
Function definitions.

* `FunctionDef.head?`: a line that starts a definition, as the name and what follows the
  parenthesis.
* `FunctionDef.findAll`: the definitions of a text in order. A parameter list may go on over lines
  that end in `_`; those lines are joined by one space each, and nothing else is looked for in them.
-/

namespace AutoItServer

/-- A definition found in a text: the name, the text between the parentheses, and the index and byte
offset of its first line. -/
structure FunctionDef where
  name : Text
  params : Text
  line : Nat
  offset : Nat
deriving Repr, DecidableEq

namespace FunctionDef

/-! ### The first line -/

/-- The text after at least one tab or space. -/
def afterIndent? : Text → Option Text
  | [] => none
  | c :: cs => if isIndent c then some (cs.dropWhile isIndent) else none

/-- The name of the function that a line defines, and the text after its opening parenthesis. The
word `Func` may follow `Volatile`. -/
def head? (line : Text) : Option (Text × Text) := do
  let start := line.dropWhile isIndent
  let start := ((Text.afterFolded? "volatile".toList start).bind afterIndent?).getD start
  let rest ← (Text.afterFolded? "func".toList start).bind afterIndent?
  let name := rest.takeWhile isWord
  match name, (rest.drop name.length).dropWhile isIndent with
  | _ :: _, '(' :: params => some (name, params)
  | _, _ => none

/-! ### The parameter list -/

/-- What one line adds to a parameter list: its text, the parentheses left open, and whether the
list ends here. -/
structure Piece where
  text : Text
  depth : Nat
  closed : Bool
deriving Repr, DecidableEq

/-- Reads a line of a parameter list up to the parenthesis that closes the list, or up to a comment.
Strings end with the line. -/
def piece (quote : Option Char) (depth : Nat) : Text → Piece
  | [] => ⟨[], depth, false⟩
  | c :: cs =>
    if quote.isNone && c = ';' then ⟨[], depth, false⟩
    else if quote.isNone && c = ')' && depth = 0 then ⟨[], 0, true⟩
    else
      let depth' := if quote.isNone then
          if c = '(' then depth + 1 else if c = ')' then depth - 1 else depth
        else depth
      let p := piece (Source.quoteAfter quote c) depth' cs
      { p with text := c :: p.text }

/-- The list so far, made ready for the next line: without the `_` at its end, and with one
space. -/
def joinable (params : Text) : Text :=
  Text.trimEnd (Text.dropLastIf '_' (Text.trimEnd params)) ++ [' ']

/-! ### The definitions of a text -/

/-- What the reader is doing: looking for a definition, or reading on in the parameter list of
`found` with `depth` parentheses open. -/
inductive Reader where
  | looking
  | reading (found : FunctionDef) (depth : Nat)
deriving Repr, DecidableEq

/-- The definition with its parameter list trimmed. -/
def finish (d : FunctionDef) : FunctionDef :=
  { d with params := Text.trim d.params }

/-- Goes on after a line `current` has been read into the list of `found`. -/
def afterPiece (found : FunctionDef) (current : Text) (p : Piece) : Reader :=
  if !p.closed && Source.continues current then .reading found p.depth else .looking

/-- The definitions in the lines, when `nesting` block comments are open at the first one. The lines
of a continued list do not change that number. -/
def findFrom (nesting : Nat) (reader : Reader) : List Line → List FunctionDef
  | [] => match reader with
    | .looking => []
    | .reading found _ => [found.finish]
  | l :: ls =>
    match reader with
    | .reading found depth =>
      let p := piece none depth (Text.trimStart l.text)
      let found := { found with params := joinable found.params ++ p.text }
      match afterPiece found l.text p with
      | .looking => found.finish :: findFrom nesting .looking ls
      | reader => findFrom nesting reader ls
    | .looking =>
      let nesting' := Source.depthAfter nesting l.text
      if Source.hides nesting l.text then findFrom nesting' .looking ls
      else match head? l.text with
        | none => findFrom nesting' .looking ls
        | some (name, rest) =>
          let p := piece none 0 rest
          let found : FunctionDef := ⟨name, p.text, l.index, l.offset⟩
          match afterPiece found l.text p with
          | .looking => found.finish :: findFrom nesting' .looking ls
          | reader => findFrom nesting' reader ls

/-- The definitions of a text outside block comments, in order. -/
def findAll (t : Text) : List FunctionDef :=
  findFrom 0 .looking (Text.lines t)

end FunctionDef

end AutoItServer
