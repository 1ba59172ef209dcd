import AutoItServer.Data.OrderedMap
import AutoItServer.Disk.Basic

/-!
The texts of files read before.

A text is kept with the time and size that the file had when it was read, and is used again as long
as both are still the same.

* `FileCache.peek?`: the text of a file as a reader gets it.
* `FileCache.read`: the cache after the file has been asked for.
-/

namespace AutoItServer

/-- By what a file is recognised as unchanged. -/
structure Snapshot where
  modified : Nat
  size : Nat
deriving Repr, DecidableEq

/-- The snapshot of a file. -/
def File.snapshot (f : File) : Snapshot :=
  ⟨f.modified, f.size⟩

/-- The snapshot of the file at a path. -/
def Disk.snapshot? (d : Disk) (p : Path) : Option Snapshot :=
  (d.file? p).map File.snapshot

/-- Texts by the components of their paths, with the snapshots they were read at. -/
structure FileCache where
  entries : OrderedMap (List Path.Component) (Snapshot × Text)
deriving Repr, DecidableEq

namespace FileCache

/-- No text is kept. -/
def empty : FileCache :=
  ⟨∅⟩

/-- The number of texts kept. -/
def size (c : FileCache) : Nat :=
  c.entries.size

/-- The text kept for a path, if it was read at this snapshot. -/
def fresh? (c : FileCache) (p : Path) (s : Snapshot) : Option Text :=
  match c.entries.find? p.components with
  | some (kept, t) => if kept = s then some t else none
  | none => none

/-- Keeps a text. -/
def insert (c : FileCache) (p : Path) (s : Snapshot) (t : Text) : FileCache :=
  ⟨c.entries.insert p.components (s, t)⟩

/-- Forgets the text of a path. -/
def invalidate (c : FileCache) (p : Path) : FileCache :=
  ⟨c.entries.erase p.components⟩

/-- The text of the file at a path: the one kept if the file is unchanged, otherwise the one on
disk. -/
def peek? (c : FileCache) (d : Disk) (p : Path) : Option Text :=
  match d.file? p with
  | none => none
  | some f => (c.fresh? p f.snapshot).or f.text?

/-- The cache after the file at a path has been asked for. -/
def read (c : FileCache) (d : Disk) (p : Path) : FileCache :=
  match d.file? p with
  | none => c
  | some f =>
    if (c.fresh? p f.snapshot).isSome then c
    else match f.text? with
      | some t => c.insert p f.snapshot t
      | none => c

/-- The cache after several files have been asked for. -/
def readAll (c : FileCache) (d : Disk) (paths : List Path) : FileCache :=
  paths.foldl (fun c p => c.read d p) c

end FileCache

end AutoItServer
