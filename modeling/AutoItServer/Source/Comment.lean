import AutoItServer.Text.Class
import AutoItServer.Text.Case
import AutoItServer.Text.Line

/-!
Lines of AutoIt source: block comments, regions, line comments and continuations.

* `Source.isBlockStart`, `Source.isBlockEnd`: the markers `#cs` and `#ce` and their long forms.
  Blocks nest, so a scan carries the number of open blocks: `Source.depthAfter` is that number after
  a line and `Source.hides` says whether the line belongs to a block.
* `Source.codeLines`: the lines outside block comments.
* `Source.stripComment`: a line up to the `;` that stands outside strings.
* `Source.continues`: a line whose code ends in a lone `_` goes on in the next line.
-/

namespace AutoItServer

namespace Source

/-! ### Directives at the start of a line -/

/-- Whether a text starts with a keyword, in any case of its letters, that does not go on as a
longer word. -/
def startsWithKeyword (keyword line : Text) : Bool :=
  match Text.afterKeyword? keyword line with
  | none => false
  | some [] => true
  | some (c :: _) => !(isIdentifier c || c == '-')

/-- A line that opens a block comment. -/
def isBlockStart (line : Text) : Bool :=
  let t := Text.trimStart line
  startsWithKeyword "#cs".toList t || startsWithKeyword "#comments-start".toList t

/-- A line that closes a block comment. -/
def isBlockEnd (line : Text) : Bool :=
  let t := Text.trimStart line
  startsWithKeyword "#ce".toList t || startsWithKeyword "#comments-end".toList t

/-- A line that opens a region. -/
def isRegionStart (line : Text) : Bool :=
  startsWithKeyword "#region".toList (Text.trimStart line)

/-- A line that closes a region. -/
def isRegionEnd (line : Text) : Bool :=
  startsWithKeyword "#endregion".toList (Text.trimStart line)

/-- A line that declares nothing: blank, a `;` comment, or a directive that is no block marker. -/
def isSkippable (line : Text) : Bool :=
  match Text.trimStart line with
  | [] => true
  | c :: _ => c == ';' || (c == '#' && !(isBlockStart line || isBlockEnd line))

/-! ### Block comments -/

/-- The number of open blocks after a line. A closing marker outside every block changes nothing. -/
def depthAfter (depth : Nat) (line : Text) : Nat :=
  if isBlockStart line then depth + 1
  else if isBlockEnd line then depth - 1
  else depth

/-- Whether a line is part of a block, its two markers included. -/
def hides (depth : Nat) (line : Text) : Bool :=
  isBlockStart line || 0 < depth

/-- The lines outside block comments, when `depth` blocks are open at the first one. -/
def visibleFrom (depth : Nat) : List Line → List Line
  | [] => []
  | l :: ls =>
    let rest := visibleFrom (depthAfter depth l.text) ls
    if hides depth l.text then rest else l :: rest

/-- The lines of a text outside block comments. -/
def codeLines (t : Text) : List Line :=
  visibleFrom 0 (Text.lines t)

/-! ### Strings, line comments and continuations -/

/-- The string that is open after one more character: `none` outside strings, otherwise the quote
that closes it. -/
def quoteAfter (quote : Option Char) (c : Char) : Option Char :=
  match quote with
  | some q => if c = q then none else some q
  | none => if isQuote c then some c else none

/-- The text up to the first `;` outside strings, when `quote` is open at its start. -/
def stripCommentFrom (quote : Option Char) : Text → Text
  | [] => []
  | c :: cs =>
    if quote.isNone && c = ';' then [] else c :: stripCommentFrom (quoteAfter quote c) cs

/-- A line without its `;` comment. -/
def stripComment (line : Text) : Text :=
  stripCommentFrom none line

/-- The code of a line: no comment and no blanks at its end. -/
def code (line : Text) : Text :=
  Text.trimEnd (stripComment line)

/-- Whether a line goes on in the next one: its code ends in a `_` that stands alone. -/
def continues (line : Text) : Bool :=
  match (code line).reverse with
  | [] => false
  | c :: before => c == '_' && (match before with
    | [] => true
    | b :: _ => isBlank b)

/-- The code of a line without the `_` at its end. -/
def continuedCode (line : Text) : Text :=
  Text.dropLastIf '_' (code line)

end Source

end AutoItServer
