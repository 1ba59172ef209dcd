import AutoItServer.Data.OrderedMap
import AutoItServer.Path.Basic
import AutoItServer.Text.Class
import AutoItServer.Text.Line

/-!
Reports of the syntax checker.

A finding stands on one line: the file in quotes, line and column in parentheses, a severity and a
message. A line that says that there are no errors and no warnings makes the whole report clean.

* `Finding.parse?`: the finding on a line.
* `Report.read`: the findings of a report by file, in the order of first appearance.
-/

namespace AutoItServer

/-- How serious a finding is. -/
inductive Severity where
  | warning
  | error
deriving Repr, DecidableEq

/-- A finding. Line and column count from zero. -/
structure Finding where
  path : Path
  line : Nat
  column : Nat
  severity : Severity
  message : Text
deriving Repr, DecidableEq

/-- What the checker says. -/
inductive Report where
  | clean
  | findings (groups : List (Path × List Finding))
deriving Repr, DecidableEq

namespace Finding

/-- Digits at the start of a text, of which there is at least one. -/
def digits? (t : Text) : Option (Text × Text) :=
  let ds := t.takeWhile isDecimal
  if ds.isEmpty then none else some (ds, t.drop ds.length)

/-- The value of ASCII digits that fits into 32 bits, counted from zero. -/
def number? (ds : Text) : Option Nat :=
  if ds.all Char.isDigit then
    let n := ds.foldl (fun n c => 10 * n + (c.toNat - 48)) 0
    if n < Nat.pow 2 32 then some (n - 1) else none
  else none

/-- The raw parts of a finding. -/
structure Raw where
  path : Text
  line : Text
  column : Text
  severity : Text
  message : Text

/-- The parts of a finding that starts a text. -/
def raw? (t : Text) : Option Raw := do
  let '"' :: rest := t | none
  let path := rest.takeWhile (· ≠ '"')
  if path.isEmpty then none
  let '"' :: '(' :: rest := rest.drop path.length | none
  let (line, rest) ← digits? rest
  let ',' :: rest := rest | none
  let (column, rest) ← digits? rest
  let ')' :: rest := rest | none
  let ':' :: rest := Text.trimStart rest | none
  let rest := Text.trimStart rest
  let severity := rest.takeWhile isWord
  if severity.isEmpty then none
  let ':' :: message := rest.drop severity.length | none
  if message.isEmpty then none else some ⟨path, line, column, severity, message⟩

/-- The parts of the first finding in a text. -/
def firstRaw? : Text → Option Raw
  | [] => none
  | c :: cs => (raw? (c :: cs)).or (firstRaw? cs)

/-- The finding on a line. A number that does not fit makes it none. -/
def parse? (line : Text) : Option Finding := do
  let raw ← firstRaw? line
  let n ← number? raw.line
  let column ← number? raw.column
  let severity := if Text.sameIgnoringCase raw.severity "warning".toList then .warning else .error
  some ⟨⟨raw.path⟩, n, column, severity, Text.trim raw.message⟩

end Finding

namespace Report

/-- What a clean run says. -/
def sentinel : Text :=
  "- 0 error(s), 0 warning(s)".toList

/-- Adds a finding to the group of its file. -/
def addFinding (groups : List (Path × List Finding)) (f : Finding) : List (Path × List Finding) :=
  match groups with
  | [] => [(f.path, [f])]
  | (p, fs) :: rest =>
    if p.same f.path then (p, fs ++ [f]) :: rest else (p, fs) :: addFinding rest f

/-- The report in the output of the checker. -/
def read (output : Text) : Report :=
  let lines := Text.strictLines output
  if lines.any (Text.occursIn sentinel) then .clean
  else .findings ((lines.filterMap Finding.parse?).foldl addFinding [])

end Report

end AutoItServer
