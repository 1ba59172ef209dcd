import AutoItServer.Source.Comment

/-!
Include directives.

* `Directive.parse?`: the directive on a line: `#include` in any case, a file between quotes or
  angle brackets, and nothing after it but blanks and a comment.
* `Directive.findAll`: the directives of a text outside block comments.
* `Directive.key`: what the list of directives is remembered by. It forgets the order of the
  directives and the case of the file names, but not how often each stands there.
-/

namespace AutoItServer

/-- How a directive names its file: in quotes, looked for beside the document first, or in angle
brackets, looked for in the library first. -/
inductive IncludeKind where
  | quoted
  | bracketed
deriving Repr, DecidableEq

/-- An include directive: the kind, the file as spelled, and the index of the line. -/
structure Directive where
  kind : IncludeKind
  spec : Text
  line : Nat
deriving Repr, DecidableEq

namespace Directive

/-! ### One line -/

/-- The kind of a directive by its opening delimiter, with the closing one. -/
def delimiter? (c : Char) : Option (IncludeKind × Char) :=
  if isQuote c then some (.quoted, c)
  else if c = '<' then some (.bracketed, '>')
  else none

/-- Whether nothing but blanks and a comment is left of a line. -/
def isRest (t : Text) : Bool :=
  match t.dropWhile isIndent with
  | [] => true
  | c :: cs => c == ';' && !cs.contains '\n'

/-- The directive on a line. -/
def parse? (line : Text) (n : Nat) : Option Directive := do
  let rest ← Text.afterFolded? "#include".toList (line.dropWhile isIndent)
  let c :: rest := rest.dropWhile isIndent | none
  let (kind, close) ← delimiter? c
  let raw := rest.takeWhile (· ≠ close)
  let _ :: tail := rest.drop raw.length | none
  if raw.isEmpty || raw.any (fun c => c == '\r' || c == '\n') || !isRest tail then none
  let spec := Text.trim raw
  if spec.isEmpty then none else some ⟨kind, spec, n⟩

/-! ### A text -/

/-- The directives in the lines from index `n` on, when `depth` block comments are open. -/
def findFrom (depth n : Nat) : List Text → List Directive
  | [] => []
  | l :: ls =>
    let rest := findFrom (Source.depthAfter depth l) (n + 1) ls
    if Source.hides depth l then rest else (parse? l n).toList ++ rest

/-- The directives of a text, in order. -/
def findAll (t : Text) : List Directive :=
  findFrom 0 0 (Text.strictLines t)

/-! ### The key of a list -/

/-- The order of keys: quoted before bracketed, then by name. -/
def keyLe (a b : IncludeKind × Text) : Bool :=
  match a.1, b.1 with
  | .quoted, .bracketed => true
  | .bracketed, .quoted => false
  | _, _ => Text.le a.2 b.2

end Directive

/-- What a list of directives is remembered by: kinds and lower-cased names, sorted. -/
structure IncludeKey where
  entries : List (IncludeKind × Text)
deriving Repr, DecidableEq

/-- The key of a list of directives. -/
def IncludeKey.ofDirectives (directives : List Directive) : IncludeKey :=
  ⟨(directives.map fun d => (d.kind, Text.lower d.spec)).mergeSort Directive.keyLe⟩

end AutoItServer
