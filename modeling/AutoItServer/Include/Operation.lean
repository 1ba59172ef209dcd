import AutoItServer.Include.Cache

/-!
The cache of includes as it is used: one operation after another.

Several computations may be under way at once. Each notes the generation in which it begins and
names it when it stores its result, so their operations stand in any order, between operations of
other kinds.

* `CacheOperation`, `IncludeCache.step`, `IncludeCache.run`: the operations, what one of them does
  and answers, and what a list of them does.
* `IncludeCache.stored?`: what an operation stores, if it is not refused.
* `IncludeCache.evicted`: the documents that an operation drops without being asked to.
* `IncludeCache.log`: all that is seen of a list of operations from outside.
-/

namespace AutoItServer

/-- What can be done with the cache. -/
inductive CacheOperation where
  | begin
  | store (u : Uri) (generation : Nat) (e : IncludeEntry)
  | get (u : Uri) (key : IncludeKey)
  | remove (u : Uri)
  | invalidateContaining (p : Path)
  | invalidateAll
deriving Repr, DecidableEq

/-- What an operation answers. -/
inductive CacheAnswer where
  | generation (n : Nat)
  | stored (success : Bool)
  | found (e : Option IncludeEntry)
  | forgotten (count : Nat)
  | done
deriving Repr, DecidableEq

namespace CacheOperation

/-- The two operations that start a new generation. -/
def isInvalidation : CacheOperation → Bool
  | .invalidateContaining _ | .invalidateAll => true
  | _ => false

/-- Whether an operation asks to forget an entry of a document. -/
def forgets : CacheOperation → Uri → IncludeEntry → Bool
  | .remove v, u, _ => u == v
  | .invalidateContaining p, _, e => e.contains p
  | .invalidateAll, _, _ => true
  | _, _, _ => false

end CacheOperation

namespace IncludeCache

/-- What an operation does, and what it answers. -/
def step (c : IncludeCache) : CacheOperation → IncludeCache × CacheAnswer
  | .begin => (c, .generation c.generation)
  | .store u generation e => ((c.store u generation e).1, .stored (c.store u generation e).2)
  | .get u key => (c, .found (c.get? u key))
  | .remove u => (c.remove u, .done)
  | .invalidateContaining p =>
    ((c.invalidateContaining p).1, .forgotten (c.invalidateContaining p).2)
  | .invalidateAll => (c.invalidateAll, .done)

/-- What a list of operations does. -/
def run (c : IncludeCache) (ops : List CacheOperation) : IncludeCache :=
  ops.foldl (fun c op => (c.step op).1) c

/-- The documents remembered, the one stored last in front. -/
def residents (c : IncludeCache) : List Uri :=
  c.entries.map Prod.fst

/-- What an operation stores, and for which document, if it is a store that succeeds. -/
def stored? (c : IncludeCache) (op : CacheOperation) : Option (Uri × IncludeEntry) :=
  match op with
  | .store u _ e => if (c.step op).2 = .stored true then some (u, e) else none
  | _ => none

/-- The documents that are no longer remembered after an operation that did not ask to forget
them. -/
def evicted (c : IncludeCache) (op : CacheOperation) : List Uri :=
  (c.entries.filter fun x => !op.forgets x.1 x.2 &&
    !(c.step op).1.residents.contains x.1).map Prod.fst

/-- What is seen of one operation: its answer, the documents it evicted, and afterwards the number
of documents and the generation. -/
structure Record where
  answer : CacheAnswer
  evicted : List Uri
  size : Nat
  generation : Nat
deriving Repr, DecidableEq

/-- What is seen of one operation. -/
def record (c : IncludeCache) (op : CacheOperation) : Record :=
  ⟨(c.step op).2, c.evicted op, (c.step op).1.size, (c.step op).1.generation⟩

/-- What is seen of a list of operations. -/
def log (c : IncludeCache) : List CacheOperation → List Record
  | [] => []
  | op :: ops => c.record op :: log (c.step op).1 ops

end IncludeCache

end AutoItServer
