import AutoItServer.Command.Basic
import AutoItServer.Command.Duration
import AutoItServer.Include.Candidates
import AutoItServer.Protocol.Wire

/-!
The program.

Its work is done by `Command.run?` and `Server.handle` on a disk that is a value. Here that value is
made: files are looked for where directives may lead, one by one, since directories are not listed.
-/

namespace AutoItServer

namespace Program

/-! ### Files -/

/-- A disk with the directory in which the program runs, and nothing else seen yet. -/
def unseen : IO Disk := do
  let here : Path := ⟨(← IO.currentDir).toString.toList⟩
  return { Disk.empty.makeDirectory here with workingDirectory := some (Disk.placeOf here) }

/-- The bytes of a file, if it can be read. -/
def bytes? (p : Path) : IO (Option (List UInt8)) := do
  try
    return some (← IO.FS.readBinFile (String.ofList p.text)).toList
  catch _ => return none

/-- Looks at a file. Its time changes only when its bytes do. -/
def look (now : Nat) (d : Disk) (p : Path) : IO Disk := do
  match ← bytes? p with
  | none => return d.delete p
  | some bytes =>
    match d.file? p with
    | some f => return if f.bytes = bytes then d else d.write p ⟨bytes, now⟩
    | none => return d.write p ⟨bytes, now⟩

/-- Looks at the files that documents include, and at those that these include. -/
partial def lookAround (now : Nat) (settings : Settings) (seen : List Path) (d : Disk) :
    List (Path × Text) → IO Disk
  | [] => return d
  | (p, t) :: rest => do
    let fresh := (Include.wanted settings p t).filter fun q => !seen.any q.same
    let d ← fresh.foldlM (look now) d
    let found := fresh.filterMap fun q => (d.text? q).map fun text => (q, text)
    lookAround now settings (fresh ++ seen) d (found ++ rest)

/-- Looks at what the open documents include. -/
def refresh (now : Nat) (e : Editor) (d : Disk) : IO Disk :=
  lookAround now e.settings [] d
    (e.documents.entries.filterMap fun (u, doc) => u.path?.map fun p => (p, doc.text))

/-! ### The server -/

/-- Reads the header of a message; the end of the input gives none. -/
partial def readHeader (input : IO.FS.Stream) (length : Option Nat) : IO (Option Nat) := do
  let line ← input.getLine
  if line.isEmpty then return none
  let text := Text.trim line.toList
  if text.isEmpty then return some (length.getD 0)
  readHeader input ((Wire.length? text).or length)

/-- Reads a number of bytes. -/
partial def readBody (input : IO.FS.Stream) (length : Nat) (done : ByteArray) : IO ByteArray := do
  if length ≤ done.size then return done
  let more ← input.read (length - done.size).toUSize
  if more.isEmpty then return done
  readBody input length (done ++ more)

/-- Takes messages until the input ends or the editor says that it leaves. -/
partial def serve (input output : IO.FS.Stream) (s : Server) (d : Disk) (number : Nat) : IO Unit :=
  do
  let some length ← readHeader input none | return
  let body ← readBody input length .empty
  let send (js : List Json) : IO Unit := do
    js.forM fun j => output.putStr (String.ofList (Wire.frame j))
    output.flush
  match Wire.Incoming.read ((String.fromUTF8? body).getD "").toList with
  | .malformed =>
    send [Wire.parseError]
    serve input output s d (number + 1)
  | .answer => serve input output s d (number + 1)
  | .message id m =>
    if m.method = "exit".toList then return
    let d ← refresh number s.editor d
    let (s, reply) := s.handle d m
    send (Wire.outgoing id number reply)
    serve input output s d (number + 1)

/-! ### The command line -/

/-- The disk that the statistics of a path are made on. -/
def statsDisk (arguments : List Text) : IO Disk := do
  let d ← (arguments.map Path.mk).foldlM (look 0) (← unseen)
  let files := arguments.filterMap fun t => (d.text? ⟨t⟩).map fun text => (Path.mk t, text)
  lookAround 0 .standard [] d files

/-- How long a phase takes. -/
def time (d : Disk) (r : Stats.Request) (phase : Stats.Phase) : IO Duration := do
  let start ← IO.monoNanosNow
  let found := (Stats.detail d (Stats.sources d r.path) phase).length
  let stop ← if found = 0 then pure start else IO.monoNanosNow
  return ⟨stop - start⟩

/-- Measures the phases of the statistics. -/
def gauge (d : Disk) (arguments : List Text) : IO (Bool → Command.Gauge) := do
  match Stats.Request.read d arguments with
  | .error _ => return fun _ => ⟨fun _ => [], [], []⟩
  | .ok r =>
    let times ← r.phases.mapM fun phase => return (phase, ← time d r phase)
    let of (phase : Stats.Phase) : Duration := ((times.find? (·.1 = phase)).map Prod.snd).getD ⟨0⟩
    let total : Duration := ⟨Stats.total (times.map fun entry => entry.2.nanoseconds)⟩
    return fun csv => if csv then ⟨fun phase => (of phase).milliseconds, [], []⟩
      else ⟨fun phase => (of phase).text, "N/A".toList, total.text⟩

/-- Runs a command and gives its exit code. -/
def run (c : Command) : IO UInt32 := do
  let arguments := match c with
    | .stats arguments => arguments
    | _ => []
  let d ← statsDisk arguments
  match c.run? d (← gauge d arguments) with
  | some outcome =>
    (← IO.getStdout).putStr (String.ofList outcome.out)
    (← IO.getStderr).putStr (String.ofList outcome.err)
    return outcome.code.toUInt32
  | none =>
    serve (← IO.getStdin) (← IO.getStdout) .fresh (← unseen) 1
    return 0

end Program

end AutoItServer

/-- The program. -/
def main (arguments : List String) : IO UInt32 :=
  AutoItServer.Program.run (AutoItServer.Command.read (arguments.map String.toList))
