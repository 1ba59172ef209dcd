import AutoItServer.Function.Definition
import AutoItServer.Symbol.Basic
import AutoItServer.Symbol.Extent
import AutoItServer.Symbol.Region
import AutoItServer.Symbol.Variable

/-!
The outline of a document: its functions, variables and regions in the order of discovery.

The lines are read one after another. `Outline.Progress` holds the symbols found so far, the number
of open block comments, and the kind of the declaration that the line goes on with.

* A function is listed once under its name in any case, and only if it has an end.
* A region is listed once under its name, and only if it is closed.
* A variable is listed once for each function it stands in, with the kind of its declaration.

`Outline.symbols` is the outline of a text.
-/

namespace AutoItServer

namespace Outline

/-- The text after the first of some words that starts it, by simple case folding. -/
def afterOneOf? (words : List String) (t : Text) : Option Text :=
  words.findSome? fun word => Text.afterFolded? word.toList t

/-- The text after blanks, of which there is at least one. -/
def afterBlanks? : Text → Option Text
  | [] => none
  | c :: cs => if isBlank c then some (Text.trimStart cs) else none

/-- The kind that a line declares: `Const` and `Enum`, alone or after `Local` or `Global`, and
otherwise a plain variable. -/
def declaredKind (line : Text) : SymbolKind :=
  let start := Text.trimStart line
  let start := ((afterOneOf? ["local", "global"] start).bind afterBlanks?).getD start
  match afterOneOf? ["const", "enum"] start with
  | none => .variable
  | some rest =>
    if !Text.endsWord rest then .variable
    else if (Text.afterKeyword? "const".toList start).isSome then .constant
    else .enumeration

/-- The state between two lines. -/
structure Progress where
  found : List Symbol
  depth : Nat
  running : Option SymbolKind
deriving Repr, DecidableEq

namespace Progress

/-- Before the first line. -/
def start : Progress :=
  ⟨[], 0, none⟩

/-- The functions found so far. -/
def functions (p : Progress) : List Symbol :=
  p.found.filter (·.kind = .function)

/-- The function whose bytes hold an offset; of several the one found last. -/
def containerAt (p : Progress) (offset : Nat) : Option Text :=
  (p.functions.reverse.find? fun f => f.start ≤ offset && offset < f.stop).map Symbol.name

/-- Whether a function of this name is listed. -/
def hasFunction (p : Progress) (name : Text) : Bool :=
  p.functions.any fun f => Text.lower f.name == Text.lower name

/-- Whether a region of this name is listed. -/
def hasRegion (p : Progress) (name : Text) : Bool :=
  p.found.any fun s => s.kind = .region && s.name == name

/-- Whether a variable of this name is listed for the container. -/
def hasVariable (p : Progress) (name : Text) (container : Option Text) : Bool :=
  p.found.any fun s => s.kind ≠ .region && s.kind ≠ .function &&
    Text.lower s.name == Text.lower name && s.container == container

/-- Lists one more symbol. -/
def add (p : Progress) (s : Symbol) : Progress :=
  { p with found := p.found ++ [s] }

/-- Lists the function that a line defines. `t` is the whole text, since a function may end after
the last line that is looked at. -/
def takeFunction (p : Progress) (t : Text) (l : Line) : Progress :=
  match FunctionDef.head? l.text with
  | none => p
  | some (name, _) =>
    if p.hasFunction name then p
    else match Extent.length? (Text.dropBytes l.offset t) with
      | none => p
      | some n => p.add ⟨name, .function, none, l.offset, l.offset + n⟩

/-- Lists the region that a line opens. -/
def takeRegion (p : Progress) (l : Line) (following : List Line) : Progress :=
  let name := Region.name l.text
  if name.isEmpty || p.hasRegion name then p
  else match Region.end? following with
    | none => p
    | some stop => p.add ⟨name, .region, none, l.offset, stop⟩

/-- Lists a variable, unless it is listed already. -/
def takeVariable (kind : SymbolKind) (container : Option Text) (offset : Nat) (p : Progress)
    (v : Nat × Text) : Progress :=
  if p.hasVariable v.2 container then p
  else p.add ⟨v.2, kind, container, offset + v.1, offset + v.1 + Text.byteLength v.2⟩

/-- Lists the variables of a line. A line that continues another has the kind of the line where the
declaration started. -/
def takeVariables (p : Progress) (l : Line) : Progress :=
  let kind := p.running.getD (declaredKind l.text)
  let listed := (Variable.findAll l.text).foldl
    (takeVariable kind (p.containerAt l.offset) l.offset) p
  { listed with running := if Source.continues l.text then some kind else none }

/-- Reads one line, which `following` lines follow. -/
def step (options : SymbolOptions) (t : Text) (p : Progress) (l : Line) (following : List Line) :
    Progress :=
  let isRegion := Source.isRegionStart l.text
  if Source.isSkippable l.text && !isRegion then p
  else
    let next := { p with depth := Source.depthAfter p.depth l.text }
    if Source.hides p.depth l.text then next
    else
      let next := next.takeFunction t l
      if isRegion then if options.withRegions then next.takeRegion l following else next
      else if options.withVariables then next.takeVariables l
      else next

/-- Reads lines one after another. -/
def run (options : SymbolOptions) (t : Text) (p : Progress) : List Line → Progress
  | [] => p
  | l :: ls => run options t (p.step options t l ls) ls

end Progress

/-- The symbols of a text, in the order of discovery. -/
def symbols (options : SymbolOptions) (t : Text) : List Symbol :=
  (Progress.start.run options t ((Text.lines t).take options.maxLines)).found

end Outline

end AutoItServer
