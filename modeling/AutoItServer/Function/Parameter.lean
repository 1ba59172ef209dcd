import AutoItServer.Source.Comment

/-!
Parameter lists.

* `Parameter.split`: the entries of a list, divided at the commas outside strings and brackets.
* `Parameter.parse?`: one entry taken apart into qualifiers, name and default value.
* `Parameter.render`: the entry written out again.
-/

namespace AutoItServer

/-- One parameter of a function definition. -/
structure Parameter where
  name : Text
  byRef : Bool
  isConst : Bool
  default : Option Text
deriving Repr, DecidableEq

namespace Parameter

/-! ### Splitting a list -/

/-- Brackets open after one more character outside strings. A closing bracket without partner
changes nothing. -/
def depthAfter (depth : Nat) (c : Char) : Nat :=
  if c = '(' ∨ c = '[' then depth + 1
  else if c = ')' ∨ c = ']' then depth - 1
  else depth

/-- The pieces of a list, when `quote` and `depth` brackets are open at its start. There is always a
first piece. -/
def pieces (quote : Option Char) (depth : Nat) : Text → Text × List Text
  | [] => ([], [])
  | c :: cs =>
    if quote.isNone && c = ',' && depth = 0 then
      let (piece, more) := pieces none 0 cs
      ([], piece :: more)
    else
      let depth' := if quote.isNone then depthAfter depth c else depth
      let (piece, more) := pieces (Source.quoteAfter quote c) depth' cs
      (c :: piece, more)

/-- The entries of a parameter list: trimmed, and without the empty ones. -/
def split (list : Text) : List Text :=
  let (piece, more) := pieces none 0 list
  ((piece :: more).map Text.trim).filter fun entry => !entry.isEmpty

/-! ### Reading one entry -/

/-- What follows a qualifier and the blanks after it. There must be at least one blank. -/
def afterQualifier? (word entry : Text) : Option Text :=
  match Text.afterKeyword? word entry with
  | some (c :: cs) => if isBlank c then some (Text.trimStart cs) else none
  | _ => none

/-- The qualifiers at the start of an entry. -/
structure Qualified where
  byRef : Bool
  isConst : Bool
  rest : Text

/-- Reads qualifiers in any order and number. Each takes at least one character, so `fuel` need not
be more than the length of the entry. -/
def qualifiers : Nat → Qualified → Qualified
  | 0, q => q
  | fuel + 1, q =>
    match afterQualifier? "byref".toList q.rest with
    | some rest => qualifiers fuel { q with byRef := true, rest }
    | none => match afterQualifier? "const".toList q.rest with
      | some rest => qualifiers fuel { q with isConst := true, rest }
      | none => q

/-- A parameter from its entry; `none` if no name is left. What follows the first `=` is the default
value, unless it is blank. -/
def parse? (entry : Text) : Option Parameter :=
  let start := Text.trim entry
  let q := qualifiers start.length ⟨false, false, start⟩
  let name := Text.trim (q.rest.takeWhile (· ≠ '='))
  let value := Text.trim ((q.rest.dropWhile (· ≠ '=')).drop 1)
  if name.isEmpty then none
  else some ⟨name, q.byRef, q.isConst, if value.isEmpty then none else some value⟩

/-- The entry of a parameter: `ByRef`, `Const`, the name and ` = ` with the default value. -/
def render (p : Parameter) : Text :=
  (if p.byRef then "ByRef ".toList else []) ++
    (if p.isConst then "Const ".toList else []) ++ p.name ++
    match p.default with
    | some value => " = ".toList ++ value
    | none => []

end Parameter

end AutoItServer
