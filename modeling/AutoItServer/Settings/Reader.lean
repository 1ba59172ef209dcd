import AutoItServer.Json.Printer
import AutoItServer.Settings.Basic

/-!
Reading settings.

Each of the eight fields is read on its own: a missing field keeps its standard value, and a field
of the wrong shape keeps it too and is reported. `Settings.read` gives the settings with the errors
in the order of the fields.
-/

namespace AutoItServer

namespace Settings

/-- The fields that can be set. -/
inductive Field where
  | includePaths
  | libraryAllowlist
  | showVariables
  | showRegions
  | maxIncludeDepth
  | maxSymbolLines
  | fileExtensions
  | maxFiles
deriving Repr, DecidableEq

/-- The key of a field. -/
def Field.key : Field → String
  | includePaths => "includePaths"
  | libraryAllowlist => "libraryAllowlist"
  | showVariables => "showVariablesInSymbols"
  | showRegions => "showRegionsInSymbols"
  | maxIncludeDepth => "maxIncludeDepth"
  | maxSymbolLines => "maxSymbolLines"
  | fileExtensions => "fileExtensions"
  | maxFiles => "workspaceSymbolsMaxFiles"

/-- What is wrong with the value of a field. -/
inductive Cause where
  | notAList
  | badEntry (entry : Json)
  | notPositive (value : Json)
  | notBoolean (value : Json)
  | noExtension
deriving Repr

/-- The wording of a cause. -/
def Cause.message : Cause → Text
  | notAList => "expected an array of strings".toList
  | badEntry entry => "unexpected entry ".toList ++ entry.render
  | notPositive value => "expected a positive integer, got ".toList ++ value.render
  | notBoolean value => "expected true or false, got ".toList ++ value.render
  | noExtension => "no usable extensions".toList

/-- A field that could not be read. -/
structure Error where
  field : Field
  cause : Cause
deriving Repr

/-- The wording of an error. -/
def Error.message (e : Error) : Text :=
  "Invalid value for wren.".toList ++ e.field.key.toList ++ ": ".toList ++ e.cause.message

/-! ### The shapes of values -/

/-- The text of an entry, unless it holds a NUL. -/
def entry? (j : Json) : Option Text :=
  j.str?.filter fun t => !t.contains '\x00'

/-- The texts of the entries of a list; the first that is none is reported. -/
def entries : List Json → Except Cause (List Text)
  | [] => .ok []
  | j :: js =>
    match entry? j with
    | none => .error (.badEntry j)
    | some t => (entries js).map (t :: ·)

/-- A list of texts. -/
def textList : Json → Except Cause (List Text)
  | .arr items => entries items
  | _ => .error .notAList

/-- A number above zero. -/
def positive (j : Json) : Except Cause Nat :=
  match j.nat? with
  | some (n + 1) => .ok (n + 1)
  | _ => .error (.notPositive j)

/-- A Boolean. -/
def boolean (j : Json) : Except Cause Bool :=
  match j.bool? with
  | some b => .ok b
  | none => .error (.notBoolean j)

/-- Search paths; empty ones are left out. -/
def paths (j : Json) : Except Cause (List Path) :=
  (textList j).map fun ts => (ts.filter fun t => !t.isEmpty).map Path.mk

/-- Extensions without the dots before them. Empty ones are left out, and at least one must be
left. -/
def extensions (j : Json) : Except Cause (List Text) :=
  match textList j with
  | .error c => .error c
  | .ok ts =>
    let usable := (ts.map fun t => t.dropWhile (· == '.')).filter fun t => !t.isEmpty
    if usable.isEmpty then .error .noExtension else .ok usable

/-! ### Reading the fields -/

/-- A field read from its value: the value to use, and the error if there is one. -/
def readField {α : Type} (settings : Json) (field : Field) (read : Json → Except Cause α)
    (standard : α) : α × List Error :=
  match settings.get? field.key with
  | none => (standard, [])
  | some j => match read j with
    | .ok a => (a, [])
    | .error cause => (standard, [⟨field, cause⟩])

/-- The object that holds the fields: the member `wren`, or the value itself. -/
def root (settings : Json) : Json :=
  (settings.get? "wren").getD settings

/-- The settings in a JSON value, and what could not be read. -/
def read (json : Json) : Settings × List Error :=
  let j := root json
  let includePaths := readField j .includePaths paths standard.includePaths
  let libraryAllowlist := readField j .libraryAllowlist textList standard.libraryAllowlist
  let showVariables := readField j .showVariables boolean standard.showVariables
  let showRegions := readField j .showRegions boolean standard.showRegions
  let maxIncludeDepth := readField j .maxIncludeDepth positive standard.maxIncludeDepth
  let maxSymbolLines := readField j .maxSymbolLines positive standard.maxSymbolLines
  let fileExtensions := readField j .fileExtensions extensions standard.fileExtensions
  let maxFiles := readField j .maxFiles positive standard.maxFiles
  ({ includePaths := includePaths.1
     libraryAllowlist := libraryAllowlist.1
     showVariables := showVariables.1
     showRegions := showRegions.1
     maxIncludeDepth := maxIncludeDepth.1
     maxSymbolLines := maxSymbolLines.1
     fileExtensions := fileExtensions.1
     maxFiles := maxFiles.1 },
   includePaths.2 ++ libraryAllowlist.2 ++ showVariables.2 ++ showRegions.2 ++ maxIncludeDepth.2 ++
     maxSymbolLines.2 ++ fileExtensions.2 ++ maxFiles.2)

end Settings

end AutoItServer
