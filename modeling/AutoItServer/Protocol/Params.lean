import AutoItServer.Document.Basic
import AutoItServer.Json.Printer
import AutoItServer.Uri.Reader

/-!
Reading the parameters of messages.

* `Params.Error`: why parameters do not fit, with its wording.
* `Params.field`, `Params.field?`: a field that has to be there, and one that may be absent or null.
* `Params.uri`, `Params.position`, `Params.change`, …: the shapes of values.
-/

namespace AutoItServer

namespace Params

/-- Why parameters do not fit. -/
inductive Error where
  | absent
  | unwanted (value : Json)
  | missing (field : String)
  | wrongType (value : Json) (expected : String)
  | wrongValue (value : Json) (expected : String)

/-- A value as it is named in an error. -/
def describe : Json → Text
  | .null => "null".toList
  | .bool b => "boolean `".toList ++ (Json.bool b).render ++ ['\x60']
  | .int n => "integer `".toList ++ (Json.int n).render ++ ['\x60']
  | .double bits => "floating point `".toList ++ (Json.double bits).render ++ ['\x60']
  | .str t => "string ".toList ++ (Json.str t).render
  | .arr _ => "sequence".toList
  | .obj _ => "map".toList

/-- The wording of an error. -/
def Error.message : Error → Text
  | absent => "Missing params field".toList
  | unwanted value => "Unexpected params: ".toList ++ value.render
  | missing name => "missing field `".toList ++ name.toList ++ ['\x60']
  | wrongType value expected =>
    "invalid type: ".toList ++ describe value ++ ", expected ".toList ++ expected.toList
  | wrongValue value expected =>
    "invalid value: ".toList ++ describe value ++ ", expected ".toList ++ expected.toList

/-- Reads a value. -/
abbrev Reader (α : Type) := Json → Except Error α

/-! ### Fields -/

/-- The members of an object. -/
def object (expected : String) : Reader Json
  | j@(.obj _) => .ok j
  | j => .error (.wrongType j expected)

/-- A field that has to be there. -/
def field {α : Type} (name : String) (read : Reader α) (j : Json) : Except Error α :=
  match j.get? name with
  | some v => read v
  | none => .error (.missing name)

/-- A field that may be absent or null. -/
def field? {α : Type} (name : String) (read : Reader α) (j : Json) : Except Error (Option α) :=
  match j.get? name with
  | none => .ok none
  | some .null => .ok none
  | some v => (read v).map some

/-! ### Values -/

/-- Any value. -/
def anything : Reader Json :=
  .ok

/-- A text. -/
def text : Reader Text
  | .str t => .ok t
  | j => .error (.wrongType j "a string")

/-- A whole number between two bounds. -/
def number (low high : Int) (expected : String) : Reader Int
  | j@(.int n) => if low ≤ n ∧ n ≤ high then .ok n else .error (.wrongValue j expected)
  | j => .error (.wrongType j expected)

/-- A signed number of 32 bits. -/
def signed : Reader Int :=
  number (-2147483648) 2147483647 "i32"

/-- An unsigned number of 32 bits. -/
def unsigned (j : Json) : Except Error Nat :=
  (number 0 4294967295 "u32" j).map Int.toNat

/-- A list, read entry by entry. -/
def list {α : Type} (read : Reader α) : Reader (List α)
  | .arr items => items.mapM read
  | j => .error (.wrongType j "a sequence")

/-- The identifier of a document. -/
def uri : Reader Uri
  | j@(.str t) => match Uri.parse? t with
    | some u => .ok u
    | none => .error (.wrongValue j "relative URL without a base")
  | j => .error (.wrongType j "a string representing an URL")

/-- A position. -/
def position (j : Json) : Except Error Position := do
  let j ← object "struct Position" j
  return ⟨← field "line" unsigned j, ← field "character" unsigned j⟩

/-- A range. -/
def range (j : Json) : Except Error Range := do
  let j ← object "struct Range" j
  return ⟨← field "start" position j, ← field "end" position j⟩

/-- One change of a document. -/
def change (j : Json) : Except Error Change := do
  let j ← object "struct TextDocumentContentChangeEvent" j
  let span ← field? "range" range j
  let _ ← field? "rangeLength" unsigned j
  return ⟨span, ← field "text" text j⟩

/-- The identifier in an object that names a document. -/
def document (j : Json) : Except Error Uri := do
  field "uri" uri (← object "struct TextDocumentIdentifier" j)

/-- The document and the position of a question. -/
def place (j : Json) : Except Error (Uri × Position) := do
  let u ← field "textDocument" document j
  return (u, ← field "position" position j)

end Params

end AutoItServer
