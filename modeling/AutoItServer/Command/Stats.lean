import AutoItServer.Include.Walk
import AutoItServer.Index.Basic
import AutoItServer.Symbol.Outline

/-!
Statistics of a workspace, in four phases.

* `Stats.Request.read`: the arguments of the command.
* `Stats.sources`: the files that are looked at.
* `Stats.detail`: what a phase finds.
* `Stats.Row`, `Stats.table`, `Stats.csv`: the report. The texts of times and of memory come from
  outside.
-/

namespace AutoItServer

namespace Stats

/-! ### Phases -/

/-- The phases, in the order in which they run. -/
inductive Phase where
  | scan
  | includes
  | signatures
  | symbols
deriving Repr, DecidableEq

namespace Phase

/-- The name of a phase. -/
def name : Phase → String
  | scan => "scan"
  | includes => "includes"
  | signatures => "signatures"
  | symbols => "symbols"

/-- All phases. -/
def all : List Phase :=
  [scan, includes, signatures, symbols]

/-- The phase of a name. -/
def ofName? (t : Text) : Option Phase :=
  all.find? fun p => p.name.toList == t

end Phase

/-! ### Arguments -/

/-- What is asked for. -/
structure Request where
  path : Path
  csv : Bool
  only : Option Phase
deriving Repr, DecidableEq

/-- What is wrong with the arguments. -/
inductive ArgumentError where
  | noPhaseName
  | unknownPhase (name : Text)
  | unknownFlag (flag : Text)
  | manyPaths
  | noPath
  | pathMissing (path : Text)
deriving Repr, DecidableEq

/-- The wording of an error. -/
def ArgumentError.message : ArgumentError → Text
  | noPhaseName => "--only requires a phase name".toList
  | unknownPhase name => "Unknown phase '".toList ++ name ++ "'. Valid phases: ".toList ++
      Text.join ", ".toList (Phase.all.map fun p => p.name.toList)
  | unknownFlag flag => "Unknown flag: '".toList ++ flag ++ "'".toList
  | manyPaths => "Multiple paths provided; expected exactly one".toList
  | noPath => "Missing required <path> argument".toList
  | pathMissing path => "Path does not exist: ".toList ++ path

/-- Reads arguments one after another, given what those before have set. -/
def readArguments (path : Option Text) (csv : Bool) (only : Option Phase) :
    List Text → Except ArgumentError (Option Text × Bool × Option Phase)
  | [] => .ok (path, csv, only)
  | argument :: rest =>
    if argument = "--csv".toList then readArguments path true only rest
    else if argument = "--only".toList then
      match rest with
      | [] => .error .noPhaseName
      | name :: rest =>
        match Phase.ofName? name with
        | none => .error (.unknownPhase name)
        | some phase => readArguments path csv (some phase) rest
    else if argument.head? = some '-' then .error (.unknownFlag argument)
    else if path.isSome then .error .manyPaths
    else readArguments (some argument) csv only rest

/-- Reads the arguments of the command. Something has to stand at the path. -/
def Request.read (d : Disk) (arguments : List Text) : Except ArgumentError Request := do
  let (path, csv, only) ← readArguments none false none arguments
  match path with
  | none => .error .noPath
  | some t => if d.contains ⟨t⟩ then .ok ⟨⟨t⟩, csv, only⟩ else .error (.pathMissing t)

/-- The phases that are asked for. -/
def Request.phases (r : Request) : List Phase :=
  Phase.all.filter fun p => r.only.all (· = p)

/-! ### What the phases find -/

/-- The files at a path with their texts: the file itself, or the source files in a directory. -/
def sources (d : Disk) (p : Path) : List (Path × Text) :=
  let paths := if d.isFile p then [p] else Index.discover d [p] Settings.standard
  paths.filterMap fun q => (d.text? q).map fun t => (q, t)

/-- A number of units with one decimal, rounded to the nearest, a half going to the even digit. -/
def oneDecimal (n unit : Nat) : Text :=
  let tenths := n * 10 / unit
  let twice := 2 * (n * 10 % unit)
  let rounded := if unit < twice ∨ (twice = unit ∧ tenths % 2 = 1) then tenths + 1 else tenths
  Text.ofNat (rounded / 10) ++ ['.'] ++ Text.ofNat (rounded % 10)

/-- A number of bytes in the largest unit that it fills. -/
def byteText (n : Nat) : Text :=
  if 1073741824 ≤ n then oneDecimal n 1073741824 ++ " GB".toList
  else if 1048576 ≤ n then oneDecimal n 1048576 ++ " MB".toList
  else if 1024 ≤ n then oneDecimal n 1024 ++ " KB".toList
  else Text.ofNat n ++ " B".toList

/-- The sum of numbers. -/
def total : List Nat → Nat
  | [] => 0
  | n :: ns => n + total ns

/-- What a phase finds in files. -/
def detail (d : Disk) (files : List (Path × Text)) : Phase → Text
  | .scan =>
    Text.ofNat files.length ++ " files, ".toList ++
      byteText (total (files.map fun f => Text.byteLength f.2))
  | .includes =>
    let counts := files.map fun f =>
      (Include.reachable d Settings.standard d.text? f.1 f.2).length
    Text.ofNat files.length ++ " files, ".toList ++ Text.ofNat (total counts) ++
      " reachable includes, widest graph ".toList ++ Text.ofNat (counts.foldl max 0)
  | .signatures =>
    let counts := files.map fun f => (Signature.ofText f.2 f.1.text).size
    Text.ofNat (total counts) ++ " functions".toList
  | .symbols =>
    let counts := files.map fun f => (Outline.symbols Settings.standard.symbolOptions f.2).length
    Text.ofNat (total counts) ++ " symbols".toList

/-- The phases that are asked for, with what each finds. -/
def results (d : Disk) (r : Request) : List (Phase × Text) :=
  let files := sources d r.path
  r.phases.map fun p => (p, detail d files p)

/-! ### The report -/

/-- What is reported of a phase: its name, the time that it took, the memory, and what it found. -/
structure Row where
  phase : Phase
  time : Text
  memory : Text
  detail : Text
deriving Repr, DecidableEq

/-- Fills a text with blanks on the right. -/
def padRight (width : Nat) (t : Text) : Text :=
  t ++ List.replicate (width - t.length) ' '

/-- Fills a text with blanks on the left. -/
def padLeft (width : Nat) (t : Text) : Text :=
  List.replicate (width - t.length) ' ' ++ t

/-- A line of the table. -/
def Row.line (r : Row) : Text :=
  "  ".toList ++ padRight 12 r.phase.name.toList ++ [' '] ++ padLeft 10 r.time ++
    "   RSS: ".toList ++
    padRight 10 r.memory ++ "  (".toList ++ r.detail ++ ")\n".toList

/-- The report as a table. Two phases and more have a total. -/
def table (rows : List Row) (total : Text) : Text :=
  let footer : Text := if 1 < rows.length then
    "\n  ".toList ++ padRight 12 "TOTAL".toList ++ [' '] ++ padLeft 10 total ++ ['\n'] else []
  "=== Wren Analysis Stats ===\n\n".toList ++ rows.flatMap Row.line ++ footer ++ ['\n']

/-- A line of comma-separated values. -/
def Row.csvLine (r : Row) : Text :=
  r.phase.name.toList ++ [','] ++ r.time ++ [','] ++ r.memory ++ ",\"".toList ++
    (r.detail.flatMap fun c => if c = '"' then ['"', '"'] else [c]) ++ "\"\n".toList

/-- The report as comma-separated values. -/
def csv (rows : List Row) : Text :=
  "phase,duration_ms,peak_rss_bytes,detail\n".toList ++ rows.flatMap Row.csvLine

end Stats

end AutoItServer
