import AutoItServer.Disk.Cache
import AutoItServer.Settings.Basic
import AutoItServer.Symbol.Outline
import AutoItServer.Text.Position

/-!
The source files of a workspace and their symbols.

* `Index.discover`: the source files at or below some roots, sorted by path, each once, and not more
  than the settings allow. Directories below a root whose names start with a dot are left out.
* `Index.symbolsOf`: the symbols of a file with their ranges in the editor.
-/

namespace AutoItServer

/-- A symbol with its range in the editor. -/
structure IndexedSymbol where
  name : Text
  kind : SymbolKind
  container : Option Text
  range : Range
deriving Repr, DecidableEq

namespace Index

/-- The symbols of a text. -/
def symbolsOf (options : SymbolOptions) (t : Text) : List IndexedSymbol :=
  (Outline.symbols options t).map fun s =>
    ⟨s.name, s.kind, s.container, Text.byteRange s.start s.stop t⟩

/-- The names from one place down to another. -/
def below? : List Text → List Text → Option (List Text)
  | [], place => some place
  | _ :: _, [] => none
  | a :: as, b :: bs => if a = b then below? as bs else none

/-- Whether a name starts with a dot. -/
def isHidden (name : Text) : Bool :=
  name.head? == some '.'

/-- The path of something below a root, from the names on the way. -/
def under (root : Path) (names : List Text) : Path :=
  if names.isEmpty then root else root.join ⟨Text.join ['/'] names⟩

/-- The files at or below a root, outside hidden directories. -/
def filesUnder (d : Disk) (root : Path) : List Path :=
  match d.locate? root with
  | none => []
  | some place => d.nodes.filterMap fun e =>
    match e.2, below? place e.1 with
    | .file _, some names =>
      if names.dropLast.any isHidden then none else some (under root names)
    | _, _ => none

/-- Removes a path that is the same as the one before it. -/
def dropRepeated : List Path → List Path
  | p :: q :: rest => if p.same q then dropRepeated (p :: rest) else p :: dropRepeated (q :: rest)
  | paths => paths

/-- The source files of a workspace. -/
def discover (d : Disk) (roots : List Path) (settings : Settings) : List Path :=
  let files := (roots.flatMap (filesUnder d)).filter settings.isSourceFile
  (dropRepeated (files.mergeSort Path.le)).take settings.maxFiles

end Index

end AutoItServer
