import AutoItServer.Catalogue.Basic
import AutoItServer.Path.Basic
import AutoItServer.Symbol.Basic

/-!
The settings of the server.

* `Settings.standard`: what holds when nothing is set.
* `Settings.includesDiffer`, `Settings.symbolsDiffer`: whether two settings differ in what shapes
  the include graph, or the symbols. Search paths are compared by components.
* `Settings.isAllowlisted`, `Settings.isSourceFile`: two questions that settings answer.
-/

namespace AutoItServer

/-- The settings. The first of the include paths is the library directory. -/
structure Settings where
  includePaths : List Path
  libraryAllowlist : List Text
  showVariables : Bool
  showRegions : Bool
  maxIncludeDepth : Nat
  maxSymbolLines : Nat
  fileExtensions : List Text
  maxFiles : Nat
deriving Repr, DecidableEq

namespace Settings

/-- The settings when nothing is set. -/
def standard : Settings where
  includePaths := []
  libraryAllowlist := Catalogue.libraries
  showVariables := true
  showRegions := true
  maxIncludeDepth := 32
  maxSymbolLines := 50000
  fileExtensions := ["au3".toList]
  maxFiles := 5000

/-- Whether two settings differ in what shapes the include graph. -/
def includesDiffer (a b : Settings) : Bool :=
  a.includePaths.map Path.components != b.includePaths.map Path.components ||
    a.libraryAllowlist != b.libraryAllowlist || a.maxIncludeDepth != b.maxIncludeDepth

/-- Whether two settings differ in what shapes the symbols. -/
def symbolsDiffer (a b : Settings) : Bool :=
  a.showVariables != b.showVariables || a.showRegions != b.showRegions ||
    a.maxSymbolLines != b.maxSymbolLines || a.fileExtensions != b.fileExtensions ||
    a.maxFiles != b.maxFiles

/-- The options for symbols. -/
def symbolOptions (s : Settings) : SymbolOptions :=
  ⟨s.showVariables, s.showRegions, s.maxSymbolLines⟩

/-- The name of a library: trimmed, in lower case and without `.au3`. -/
def libraryName (spec : Text) : Text :=
  let lower := Text.lower (Text.trim spec)
  let dot := ".au3".toList
  if dot.isSuffixOf lower then lower.take (lower.length - dot.length) else lower

/-- Whether a name is that of a library on the list. -/
def isAllowlisted (s : Settings) (spec : Text) : Bool :=
  s.libraryAllowlist.any fun entry => libraryName entry == libraryName spec

/-- Whether a file has one of the extensions of source files. -/
def isSourceFile (s : Settings) (p : Path) : Bool :=
  match p.extension? with
  | some ext => s.fileExtensions.any (Text.sameIgnoringCase · ext)
  | none => false

end Settings

end AutoItServer
