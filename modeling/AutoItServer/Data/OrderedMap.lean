/-!
Maps that remember the order in which their keys first came.

* `OrderedMap.insert`: a new key goes to the end, a known key keeps its place and its spelling and
  only its value changes.
* `OrderedMap.overlay`: the entries of a second map inserted one after another into a first one.
-/

namespace AutoItServer

/-- Keys with their values, in the order of first insertion. -/
structure OrderedMap (κ α : Type) where
  entries : List (κ × α)
deriving Repr, DecidableEq

namespace OrderedMap

variable {κ α : Type} [BEq κ]

/-- The map without entries. -/
def empty : OrderedMap κ α :=
  ⟨[]⟩

instance : EmptyCollection (OrderedMap κ α) := ⟨empty⟩

instance : Inhabited (OrderedMap κ α) := ⟨empty⟩

/-- The number of keys. -/
def size (m : OrderedMap κ α) : Nat :=
  m.entries.length

/-- The keys in order. -/
def keys (m : OrderedMap κ α) : List κ :=
  m.entries.map Prod.fst

/-- The values in the order of their keys. -/
def values (m : OrderedMap κ α) : List α :=
  m.entries.map Prod.snd

/-- The value of a key. -/
def find? (k : κ) (m : OrderedMap κ α) : Option α :=
  (m.entries.find? fun e => e.1 == k).map Prod.snd

/-- Whether a key has a value. -/
def contains (k : κ) (m : OrderedMap κ α) : Bool :=
  m.entries.any fun e => e.1 == k

/-- Inserts into a list of entries. -/
def insertEntry (k : κ) (v : α) : List (κ × α) → List (κ × α)
  | [] => [(k, v)]
  | (k', v') :: rest => if k' == k then (k', v) :: rest else (k', v') :: insertEntry k v rest

/-- Gives a key a value. -/
def insert (k : κ) (v : α) (m : OrderedMap κ α) : OrderedMap κ α :=
  ⟨insertEntry k v m.entries⟩

/-- Changes the value of a key, if it has one. -/
def modify (k : κ) (f : α → α) (m : OrderedMap κ α) : OrderedMap κ α :=
  ⟨m.entries.map fun e => if e.1 == k then (e.1, f e.2) else e⟩

/-- Removes a key; the others keep their order. -/
def erase (k : κ) (m : OrderedMap κ α) : OrderedMap κ α :=
  ⟨m.entries.filter fun e => !(e.1 == k)⟩

/-- Inserts entries one after another. -/
def insertAll (entries : List (κ × α)) (m : OrderedMap κ α) : OrderedMap κ α :=
  entries.foldl (fun m e => m.insert e.1 e.2) m

/-- Inserts the entries of `upper` into `lower`. -/
def overlay (lower upper : OrderedMap κ α) : OrderedMap κ α :=
  lower.insertAll upper.entries

/-- The map of entries given one after another. -/
def ofList (entries : List (κ × α)) : OrderedMap κ α :=
  (empty : OrderedMap κ α).insertAll entries

end OrderedMap

end AutoItServer
