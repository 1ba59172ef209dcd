import AutoItServer.Command.Stats

/-!
The command line.

* `Command.read`: what the arguments ask for.
* `Command.Outcome`: the exit code and the two outputs of a run.
-/

namespace AutoItServer

/-- What the arguments ask for. -/
inductive Command where
  | version
  | help
  | serve
  | stats (arguments : List Text)
  | unknown (argument : Text)
deriving Repr, DecidableEq

namespace Command

/-- Reads arguments from the left; the first that decides wins. -/
def readFrom (serving : Bool) : List Text → Command
  | [] => if serving then .serve else .help
  | argument :: rest =>
    if argument = "--stdio".toList then readFrom true rest
    else if argument = "--version".toList then .version
    else if argument = "--help".toList then .help
    else if argument = "analysis-stats".toList then .stats rest
    else .unknown argument

/-- What the arguments ask for. Without arguments that is help. -/
def read (arguments : List Text) : Command :=
  readFrom false arguments

/-- The version of the program. -/
def versionText : Text :=
  "wren 0.1.0".toList

/-- The lines of the help after the first. -/
def helpLines : List String :=
  ["",
    "Usage: wren [OPTIONS]",
    "       wren analysis-stats <path> [--csv] [--only <phase>]",
    "",
    "Available options:",
    "",
    "--stdio                      Start the LSP server using stdio transport",
    "--version                    Print the version",
    "--help                       Print this help message",
    ""]

/-- The help of the program. -/
def helpText : Text :=
  versionText ++ ", a static AutoIt Language Server.\n".toList ++
    helpLines.flatMap fun line => line.toList ++ ['\n']

/-- The exit code of a run and what it writes. -/
structure Outcome where
  code : Nat
  out : Text
  err : Text
deriving Repr, DecidableEq

/-- A run that succeeds. -/
def succeed (out : Text) : Outcome :=
  ⟨0, out, []⟩

/-- A run that fails. -/
def fail (message : Text) : Outcome :=
  ⟨1, [], "Error: ".toList ++ message ++ ['\n']⟩

/-- The texts for times and memory that a run of the statistics takes from outside. -/
structure Gauge where
  time : Stats.Phase → Text
  memory : Text
  total : Text

/-- The outcome of the statistics. -/
def runStats (d : Disk) (gauge : Bool → Gauge) (arguments : List Text) : Outcome :=
  match Stats.Request.read d arguments with
  | .error cause => fail cause.message
  | .ok request =>
    let g := gauge request.csv
    let rows := (Stats.results d request).map fun (phase, detail) =>
      ({ phase, time := g.time phase, memory := g.memory, detail } : Stats.Row)
    succeed (if request.csv then Stats.csv rows else Stats.table rows g.total)

/-- The outcome of a command, the server apart, which has none before its input ends. -/
def run? (d : Disk) (gauge : Bool → Gauge) : Command → Option Outcome
  | .version => some (succeed (versionText ++ ['\n']))
  | .help => some (succeed helpText)
  | .serve => none
  | .stats arguments => some (runStats d gauge arguments)
  | .unknown argument => some (fail ("Unknown argument: '".toList ++ argument ++ "'".toList))

end Command

end AutoItServer
