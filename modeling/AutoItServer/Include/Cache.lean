import AutoItServer.Include.Walk
import AutoItServer.Uri.Basic

/-!
What documents include, remembered between requests.

An entry holds the files and signatures that a document reaches, and the key of the directives it
was computed from. Only so many documents are remembered; the one stored longest ago has to go
first. Each invalidation starts a new generation, and a result computed in an earlier generation is
not stored.
-/

namespace AutoItServer

/-- What a document includes. -/
structure IncludeEntry where
  key : IncludeKey
  files : List Path
  signatures : SignatureMap
deriving Repr, DecidableEq

/-- Whether an entry holds a file. -/
def IncludeEntry.contains (e : IncludeEntry) (p : Path) : Bool :=
  e.files.any p.same

/-- Entries by document, the one stored last in front. Generations are counted without limit; a
counter of 64 bits would meet an old one again after `2 ^ 64` invalidations. -/
structure IncludeCache where
  capacity : Nat
  generation : Nat
  entries : List (Uri × IncludeEntry)
deriving Repr, DecidableEq

namespace IncludeCache

/-- An empty cache for at least one document. -/
def withCapacity (n : Nat) : IncludeCache :=
  ⟨max n 1, 0, []⟩

/-- An empty cache of the usual capacity. -/
def empty : IncludeCache :=
  withCapacity 256

/-- The number of documents remembered. -/
def size (c : IncludeCache) : Nat :=
  c.entries.length

/-- The entry of a document. -/
def entry? (c : IncludeCache) (u : Uri) : Option IncludeEntry :=
  (c.entries.find? fun e => e.1 == u).map Prod.snd

/-- The entry of a document, if it was computed from directives with this key. -/
def get? (c : IncludeCache) (u : Uri) (key : IncludeKey) : Option IncludeEntry :=
  (c.entry? u).filter (·.key = key)

/-- Forgets a document. -/
def remove (c : IncludeCache) (u : Uri) : IncludeCache :=
  { c with entries := c.entries.filter fun e => !(e.1 == u) }

/-- Remembers an entry in front; a document too many at the other end is forgotten. -/
def push (c : IncludeCache) (u : Uri) (e : IncludeEntry) : IncludeCache :=
  { c with entries := ((u, e) :: (c.remove u).entries).take c.capacity }

/-- Stores an entry computed in a generation, unless that generation is over. The second part says
whether it was stored. -/
def store (c : IncludeCache) (u : Uri) (generation : Nat) (e : IncludeEntry) :
    IncludeCache × Bool :=
  if c.generation = generation then (c.push u e, true) else (c, false)

/-- Forgets the documents that reach a file, and says how many there were. -/
def invalidateContaining (c : IncludeCache) (p : Path) : IncludeCache × Nat :=
  let kept := c.entries.filter fun e => !e.2.contains p
  ({ c with generation := c.generation + 1, entries := kept }, c.entries.length - kept.length)

/-- Forgets all documents. -/
def invalidateAll (c : IncludeCache) : IncludeCache :=
  { c with generation := c.generation + 1, entries := [] }

end IncludeCache

end AutoItServer
