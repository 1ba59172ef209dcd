import AutoItServer.Checker.Report
import AutoItServer.Text.Position
import AutoItServer.Uri.Basic

/-!
What is published of a report.

Each file with findings gets its diagnostics, and each document that had some before and has none
now gets an empty list, in the order of their identifiers.
-/

namespace AutoItServer

/-- A diagnostic shown in the editor, at one position. -/
structure Diagnostic where
  position : Position
  severity : Severity
  message : Text
deriving Repr, DecidableEq

/-- The diagnostic of a finding. -/
def Finding.diagnostic (f : Finding) : Diagnostic :=
  ⟨⟨f.line, f.column⟩, f.severity, f.message⟩

namespace Report

/-- The diagnostics of the files with findings. A relative path is shown nowhere. -/
def diagnostics : Report → List (Uri × List Diagnostic)
  | .clean => []
  | .findings groups => groups.filterMap fun (p, fs) =>
    (Uri.ofPath? p).map fun u => (u, fs.map Finding.diagnostic)

/-- The documents of a list that are not among some publications, each once and in order. -/
def stale (previous : List Uri) (fresh : List (Uri × List Diagnostic)) : List Uri :=
  let gone := previous.eraseDups.filter fun u => !fresh.any fun e => e.1 == u
  gone.mergeSort fun a b => Text.le a.text b.text

/-- What is published after a report, when the documents of `previous` show diagnostics. -/
def publish (r : Report) (previous : List Uri) : List (Uri × List Diagnostic) :=
  let fresh := r.diagnostics
  fresh ++ (stale previous fresh).map fun u => (u, [])

/-- The documents that show diagnostics after a publication. -/
def showing (publications : List (Uri × List Diagnostic)) : List Uri :=
  (publications.filter fun e => !e.2.isEmpty).map Prod.fst

end Report

end AutoItServer
