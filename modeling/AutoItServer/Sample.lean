import AutoItServer.Text.Basic

/-!
Sample workspaces: source files made from a few numbers, the same ones each time.

The files of a sample include each other in a chain, which may be closed to a cycle.

* `Sample.small`, `Sample.medium`, `Sample.large`: three sizes.
* `Sample.content`: the text of a file.
-/

namespace AutoItServer

/-- The shape of a sample: how many files there are, how many functions, library includes and lines
of other code each has, how long the chain of includes is, and whether its last file includes the
first. -/
structure Sample where
  fileCount : Nat
  functions : Nat
  depth : Nat
  libraries : Nat
  extraLines : Nat
  closesCycle : Bool
deriving Repr, DecidableEq

namespace Sample

/-- A sample of 10 files. -/
def small : Sample :=
  ⟨10, 5, 3, 1, 5, false⟩

/-- A sample of 50 files. -/
def medium : Sample :=
  ⟨50, 10, 10, 2, 10, false⟩

/-- A sample of 200 files whose chain is closed. -/
def large : Sample :=
  ⟨200, 20, 30, 3, 20, true⟩

/-- The libraries that are included in turn. -/
def libraryNames : List String :=
  ["Array.au3", "File.au3", "String.au3", "Date.au3", "Math.au3", "Misc.au3"]

/-- The name of a file. -/
def fileName (i : Nat) : String :=
  s!"file_{i}.au3"

/-- The name of a function in a file. -/
def functionName (i k : Nat) : String :=
  s!"Func_{i}_{k}"

/-- The includes of libraries in a file. -/
def libraryLines (s : Sample) (i : Nat) : List String :=
  (List.range s.libraries).map fun k =>
    let name := (libraryNames[(i * s.libraries + k) % libraryNames.length]?).getD ""
    s!"#include <{name}>"

/-- The file that a file includes, if any: the next of the chain, or the first at its end. -/
def next? (s : Sample) (i : Nat) : Option Nat :=
  if i < s.depth ∧ i + 1 < s.fileCount then some (i + 1)
  else if s.closesCycle ∧ i = min s.depth (s.fileCount - 1) ∧ 0 < i then some 0
  else none

/-- The lines of a function. -/
def functionLines (i k : Nat) : List String :=
  let name := functionName i k
  let value := k + 1
  ["; #FUNCTION# ".append ("".pushn '=' 116),
    s!"; Name ..........: {name}",
    s!"; Description ...: Generated function {k} of file {i}.",
    "; Parameters ....: $iX                 - A number.",
    s!";                  $iY                 - [optional] A number. Default is {value}.",
    "; ".append ("".pushn '=' 127),
    s!"Func {name}($iX, $iY = {value})",
    s!"\tLocal $iResult = $iX + $iY * {value}",
    "\tIf $iResult < 0 Then",
    "\t\tReturn SetError(1, 0, 0)",
    "\tEndIf",
    "\tReturn $iResult",
    "EndFunc",
    ""]

/-- The lines of a file. -/
def lines (s : Sample) (i : Nat) : List String :=
  let quote := "\""
  let chain := match s.next? i with
    | some n => let name := fileName n; [s!"#include {quote}{name}{quote}"]
    | none => []
  let extra := (List.range s.extraLines).map fun k =>
    let value := k + 1
    s!"Global $g_iVar_{i}_{k} = {value}"
  let gap := if s.extraLines = 0 then [] else [""]
  s.libraryLines i ++ chain ++ [""] ++ extra ++ gap ++
    (List.range s.functions).flatMap (functionLines i)

/-- The text of a file. -/
def content (s : Sample) (i : Nat) : Text :=
  (s.lines i).flatMap fun line => line.toList ++ ['\n']

end Sample

end AutoItServer
