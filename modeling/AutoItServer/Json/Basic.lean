import AutoItServer.Data.OrderedMap
import AutoItServer.Text.Basic

/-!
JSON values, as settings and messages come in and go out.

Whole numbers from `-2^63` up to `2^64 - 1` are kept exactly; every other number is a double, kept
by its bits. The members of an object keep their order.
-/

namespace AutoItServer

/-- A JSON value. -/
inductive Json where
  | null
  | bool (b : Bool)
  | int (n : Int)
  | double (bits : UInt64)
  | str (t : Text)
  | arr (items : List Json)
  | obj (members : List (Text × Json))
deriving Repr, Inhabited

namespace Json

/-- A string literal as a value. -/
def text (s : String) : Json :=
  .str s.toList

/-- A natural number as a value. -/
def nat (n : Nat) : Json :=
  .int (Int.ofNat n)

/-- A value or `null`. -/
def opt {α : Type} (f : α → Json) : Option α → Json
  | none => .null
  | some a => f a

/-- A list of values. -/
def list {α : Type} (f : α → Json) (items : List α) : Json :=
  .arr (items.map f)

/-- An object whose keys are given as literals. -/
def record (members : List (String × Json)) : Json :=
  .obj (members.map fun m => (m.1.toList, m.2))

/-- An object that leaves out the members without value. -/
def recordOf (members : List (String × Option Json)) : Json :=
  .obj (members.filterMap fun m => m.2.map fun v => (m.1.toList, v))

/-- The member of an object. -/
def get? (key : String) : Json → Option Json
  | .obj members => OrderedMap.find? key.toList ⟨members⟩
  | _ => none

/-- The member of an object, `null` if there is none. -/
def getD (key : String) (j : Json) : Json :=
  (j.get? key).getD .null

/-- The text of a string. -/
def str? : Json → Option Text
  | .str t => some t
  | _ => none

/-- The value of a Boolean. -/
def bool? : Json → Option Bool
  | .bool b => some b
  | _ => none

/-- The items of an array. -/
def arr? : Json → Option (List Json)
  | .arr items => some items
  | _ => none

/-- The members of an object. -/
def obj? : Json → Option (List (Text × Json))
  | .obj members => some members
  | _ => none

/-- The value of a whole number that is not negative. -/
def nat? : Json → Option Nat
  | .int (.ofNat n) => some n
  | _ => none

/-- The value of a whole number of at most 32 bits that is not negative. -/
def word? (j : Json) : Option Nat :=
  j.nat?.filter (· < Nat.pow 2 32)

end Json

end AutoItServer
