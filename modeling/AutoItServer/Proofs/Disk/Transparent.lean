import AutoItServer.Proofs.Disk.Cache
import AutoItServer.Proofs.Disk.Tree

/-!
Reading through the cache is reading the disk.

A text that is kept outlives its file: after a deletion, or after an overwriting that cannot be
read, it waits for a file with its snapshot to come back. It is the right text then if the files
that stand at one place in the course of time are told apart by their snapshots, and the whole
history of the place decides that, not only the file there now.

* `FileOperation`, `CachedDisk.run`: a disk that changes while it is read through a cache.
* `Version`, `Distinguishable`: the files of a place in the course of time, and when their snapshots
  tell them apart.
* `Accounted`: every text kept is that of some version, and every file on disk is a version. One
  operation keeps it so (`Accounted.step`), hence all of them do (`Accounted.run`).
* `lastFile?`, `isTree_run`: the file that operations leave at a place, read off them alone.
* `read?_eq_text?`: a reader gets the text on disk, which is that of the file left.
-/

namespace AutoItServer

open AutoItServer.Disk (placeOf Writable)
open AutoItServer.Path (endsInStep)

/-- What happens to a disk and the cache through which it is read. -/
inductive FileOperation where
  | write (p : Path) (f : File)
  | delete (p : Path)
  | read (p : Path)
  | invalidate (p : Path)
  | invalidateAll
deriving Repr, DecidableEq

/-- A disk, and the texts kept of it. -/
structure CachedDisk where
  disk : Disk
  cache : FileCache
deriving Repr, DecidableEq

namespace CachedDisk

/-- Nothing has been read yet. -/
def start (d : Disk) : CachedDisk :=
  ⟨d, .empty⟩

/-- What one operation does. -/
def step (s : CachedDisk) : FileOperation → CachedDisk
  | .write p f => { s with disk := s.disk.write p f }
  | .delete p => { s with disk := s.disk.delete p }
  | .read p => { s with cache := s.cache.read s.disk p }
  | .invalidate p => { s with cache := s.cache.invalidate p }
  | .invalidateAll => { s with cache := .empty }

/-- What operations do one after another. -/
def run (s : CachedDisk) (ops : List FileOperation) : CachedDisk :=
  ops.foldl step s

/-- What a reader gets at a path. -/
def read? (s : CachedDisk) (p : Path) : Option Text :=
  s.cache.peek? s.disk p

end CachedDisk

/-! ### Versions -/

/-- The file that an operation writes, and where. -/
def FileOperation.written? (d : Disk) : FileOperation → Option (List Text × File)
  | .write p f => (d.placeFor? p).map fun place => (place, f)
  | _ => none

/-- The files that stand at a place in the course of time: the one there at first, and those
written. -/
def Version (d : Disk) (ops : List FileOperation) (place : List Text) (f : File) : Prop :=
  d.node? place = some (.file f) ∨ (place, f) ∈ ops.filterMap (FileOperation.written? d)

/-- The versions of a place with the same time and size have the same bytes. Paths that lead to the
same place count as one path. -/
def Distinguishable (versions : List Text → File → Prop) : Prop :=
  ∀ place f g, versions place f → versions place g → f.snapshot = g.snapshot → f.bytes = g.bytes

/-- On an empty disk the versions are the files written. -/
lemma version_empty_iff {ops : List FileOperation} {place : List Text} {f : File} :
    Version Disk.empty ops place f ↔
      (place, f) ∈ ops.filterMap (FileOperation.written? Disk.empty) := by
  rw [Version, or_iff_right]
  rw [Disk.node?]
  split_ifs <;> simp [Disk.empty]

namespace Disk

variable {d : Disk} {p : Path} {f g : File} {place : List Text}

lemma node?_write_self (hplace : d.placeFor? p = some place) (h : place ≠ []) :
    (d.write p f).node? place = some (.file f) := by
  rw [write_of_placeFor? hplace, node?_set, if_neg h, if_pos rfl]

/-- After a write, a place holds the file written there or the one it held. -/
lemma eq_or_node?_of_write (h : (d.write p f).node? place = some (.file g)) :
    (d.placeFor? p = some place ∧ g = f) ∨ d.node? place = some (.file g) := by
  by_cases hplace : d.placeFor? p = some place
  · left
    have hne : place ≠ [] := by
      intro hnil
      rw [hnil] at h
      simp [node?] at h
    rw [node?_write_self hplace hne] at h
    exact ⟨hplace, (Node.file.inj (Option.some.inj h)).symm⟩
  · exact Or.inr ((node?_write_iff hplace).mp h)

end Disk

namespace CachedDisk

variable {s : CachedDisk} {versions : List Text → File → Prop} {op : FileOperation}
  {ops : List FileOperation} {d : Disk}

/-- Relative paths start where they started on a disk `d`, every file on disk is one of the versions
of its place, and every text kept for a path is that of a version of its place, with its
snapshot. -/
structure Accounted (d : Disk) (versions : List Text → File → Prop) (s : CachedDisk) : Prop where
  home : s.disk.workingDirectory = d.workingDirectory
  standing : ∀ place f, s.disk.node? place = some (.file f) → versions place f
  kept : ∀ p m t, s.cache.entries.find? p.components = some (m, t) →
    ∃ place f, d.placeFor? p = some place ∧ versions place f ∧ f.snapshot = m ∧ f.text? = some t

namespace Accounted

lemma start (hhome : s.disk.workingDirectory = d.workingDirectory)
    (h : ∀ place f, s.disk.node? place = some (.file f) → versions place f) :
    (CachedDisk.start s.disk).Accounted d versions where
  home := hhome
  standing := h
  kept p m t hkept := by simp [CachedDisk.start, FileCache.empty] at hkept

lemma placeFor?_eq (h : s.Accounted d versions) (p : Path) : s.disk.placeFor? p = d.placeFor? p :=
  Disk.placeFor?_of_workingDirectory h.home p

/-- **One operation** keeps everything accounted for, if what it writes is a version. -/
lemma step (h : s.Accounted d versions) (hop : ∀ w ∈ op.written? d, versions w.1 w.2) :
    (s.step op).Accounted d versions := by
  cases op with
  | write p f =>
    refine ⟨(Disk.workingDirectory_write s.disk p f).trans h.home, fun place g hnode => ?_, h.kept⟩
    rcases Disk.eq_or_node?_of_write hnode with ⟨hplace, rfl⟩ | hnode
    · rw [h.placeFor?_eq] at hplace
      exact hop (place, g) (by rw [FileOperation.written?, hplace]; rfl)
    · exact h.standing place g hnode
  | delete p =>
    refine ⟨(Disk.workingDirectory_delete s.disk p).trans h.home, fun place g hnode => ?_, h.kept⟩
    exact h.standing place g (Disk.node?_delete hnode)
  | read q =>
    refine ⟨h.home, h.standing, fun p m t hkept => ?_⟩
    rcases FileCache.find?_read hkept with hkept | ⟨hpath, f, hfile, hm, ht⟩
    · exact h.kept p m t hkept
    · obtain ⟨place, hplace, hnode⟩ := Disk.file?_eq_some_iff_locate?.mp hfile
      refine ⟨place, f, ?_, h.standing place f hnode, hm, ht⟩
      rw [Disk.placeFor?_congr hpath, ← h.placeFor?_eq, Disk.placeFor?_of_locate? hplace]
  | invalidate q =>
    refine ⟨h.home, h.standing, fun p m t hkept => ?_⟩
    rw [CachedDisk.step, FileCache.invalidate, OrderedMap.find?_erase] at hkept
    split_ifs at hkept
    exact h.kept p m t hkept
  | invalidateAll => exact start h.home h.standing

/-- **All operations** keep everything accounted for. -/
lemma run (h : s.Accounted d versions)
    (hops : ∀ w ∈ ops.filterMap (FileOperation.written? d), versions w.1 w.2) :
    (s.run ops).Accounted d versions := by
  induction ops generalizing s with
  | nil => exact h
  | cons op ops ih =>
    refine ih (h.step fun w hw => hops w ?_) fun w hw => hops w ?_
    · exact List.mem_filterMap.mpr ⟨op, List.mem_cons_self, hw⟩
    · obtain ⟨op', hmem, hw⟩ := List.mem_filterMap.mp hw
      exact List.mem_filterMap.mpr ⟨op', List.mem_cons_of_mem _ hmem, hw⟩

/-- What is kept is honest where snapshots tell the versions apart. -/
lemma honest (h : s.Accounted d versions) (hdistinct : Distinguishable versions) (p : Path) :
    s.cache.Honest s.disk p := by
  intro m t f place hkept hplace hnode hm
  obtain ⟨place', g, hplace', hversion, rfl, hg⟩ := h.kept p m t hkept
  rw [h.placeFor?_eq, hplace', Option.some.injEq] at hplace
  subst hplace
  have hbytes : f.bytes = g.bytes := hdistinct _ f g (h.standing _ f hnode) hversion hm
  rw [← hg, File.text?, File.text?, hbytes]

end Accounted

/-- After any operations, what is there is a version. -/
lemma accounted_run (d : Disk) (ops : List FileOperation) :
    ((start d).run ops).Accounted d (Version d ops) :=
  Accounted.run (Accounted.start (s := start d) rfl fun _ _ => Or.inl) fun _ => Or.inr

end CachedDisk

/-! ### The file left at a place -/

/-- The file at a place after an operation at file paths, given the one before. -/
def FileOperation.leaves (d : Disk) (place : List Text) (before : Option File) :
    FileOperation → Option File
  | .write p f => if d.placeFor? p = some place then some f else before
  | .delete p => if d.placeFor? p = some place then none else before
  | _ => before

/-- What an operation leaves depends on where relative paths start only. -/
lemma FileOperation.leaves_of_workingDirectory {d d' : Disk}
    (h : d'.workingDirectory = d.workingDirectory) (place : List Text) :
    FileOperation.leaves d' place = FileOperation.leaves d place := by
  funext before op
  cases op <;> simp only [leaves, Disk.placeFor?_of_workingDirectory h]

/-- The file at a place. -/
def Disk.fileAt? (d : Disk) (place : List Text) : Option File :=
  match d.node? place with
  | some (.file f) => some f
  | _ => none

/-- The file last written at a place and not deleted since. -/
def lastFile? (d : Disk) (ops : List FileOperation) (place : List Text) : Option File :=
  ops.foldl (FileOperation.leaves d place) (d.fileAt? place)

/-- An absolute path without `..` that is not spelled as a directory. -/
structure Path.NamesFile (p : Path) : Prop where
  direct : p.Direct
  endsInStep : endsInStep (Text.splitOnChar '/' p.text)

/-- Whether an operation is one on files: what is written can stand where it is written, and what is
deleted is named as a file. -/
def FileOperation.OnFiles (d : Disk) : FileOperation → Prop
  | .write p _ => ∀ place ∈ d.placeFor? p, d.Writable place
  | .delete p => p.NamesFile
  | _ => True

/-- Whether all operations are on files, each at its time. -/
def CachedDisk.OnFiles (s : CachedDisk) : List FileOperation → Prop
  | [] => True
  | op :: ops => op.OnFiles s.disk ∧ (s.step op).OnFiles ops

namespace Disk

variable {d : Disk} {p : Path} {f : File} {place : List Text}

lemma fileAt?_eq_some_iff : d.fileAt? place = some f ↔ d.node? place = some (.file f) := by
  rw [fileAt?]
  split <;> simp_all

lemma fileAt?_write (h : ∀ place ∈ d.placeFor? p, d.Writable place) (f : File) (place : List Text) :
    (d.write p f).fileAt? place = if d.placeFor? p = some place then some f else
      d.fileAt? place := by
  ext g
  rw [fileAt?_eq_some_iff]
  split_ifs with hplace
  · rw [node?_write_self hplace (h place hplace).1, Option.some.injEq, Option.some.injEq,
      Node.file.injEq]
  · rw [node?_write_iff hplace, fileAt?_eq_some_iff]

lemma fileAt?_delete_of_isFile (h : d.isFile p) (place : List Text) :
    (d.delete p).fileAt? place = if d.placeFor? p = some place then none else d.fileAt? place := by
  obtain ⟨f, hf⟩ := Option.isSome_iff_exists.mp h
  obtain ⟨r, hr, -⟩ := file?_eq_some_iff_locate?.mp hf
  have hplace := placeFor?_of_locate? hr
  ext g
  rw [fileAt?_eq_some_iff, node?_delete_of_isFile h hplace, hplace]
  by_cases hsame : place = r
  · rw [if_pos hsame, if_pos (congrArg some hsame.symm)]
    simp
  · rw [if_neg hsame, if_neg fun h => hsame (Option.some.inj h).symm, fileAt?_eq_some_iff]

/-- The file at a path that names one is the one at its place. -/
lemma file?_eq_fileAt? (h : d.IsTree) (hp : p.NamesFile) : d.file? p = d.fileAt? (placeOf p) := by
  ext f
  rw [file?_eq_some_iff h hp.direct, fileAt?_eq_some_iff, and_iff_right hp.endsInStep]

/-- Where a file is named, deleting leaves none, whether there was one or not. -/
lemma fileAt?_delete (h : d.IsTree) (hp : p.NamesFile) (place : List Text) :
    (d.delete p).fileAt? place = if d.placeFor? p = some place then none else d.fileAt? place := by
  by_cases hfile : d.isFile p
  · exact fileAt?_delete_of_isFile hfile place
  · rw [delete_of_not_isFile hfile]
    split_ifs with hplace
    · rw [placeFor?_of_isAbsolute d hp.direct.isAbsolute, Option.some.injEq] at hplace
      rw [← hplace, ← file?_eq_fileAt? h hp]
      simpa [isFile] using hfile
    · rfl

end Disk

namespace CachedDisk

variable {s : CachedDisk} {op : FileOperation} {ops : List FileOperation}

lemma workingDirectory_step (s : CachedDisk) (op : FileOperation) :
    (s.step op).disk.workingDirectory = s.disk.workingDirectory := by
  cases op with
  | write p f => exact Disk.workingDirectory_write s.disk p f
  | delete p => exact Disk.workingDirectory_delete s.disk p
  | read p => rfl
  | invalidate p => rfl
  | invalidateAll => rfl

/-- An operation on files keeps a tree, and leaves at each place what it says. -/
lemma isTree_step (h : s.disk.IsTree) (hop : op.OnFiles s.disk) :
    (s.step op).disk.IsTree ∧
      ∀ place, (s.step op).disk.fileAt? place = op.leaves s.disk place (s.disk.fileAt? place) := by
  cases op with
  | write p f =>
    refine ⟨?_, Disk.fileAt?_write hop f⟩
    cases hplace : s.disk.placeFor? p with
    | none =>
      rw [step, Disk.write, hplace]
      exact h
    | some place => exact Disk.isTree_write h hplace (hop place hplace) f
  | delete p => exact ⟨Disk.isTree_delete h p, Disk.fileAt?_delete h hop⟩
  | read p => exact ⟨h, fun _ => rfl⟩
  | invalidate p => exact ⟨h, fun _ => rfl⟩
  | invalidateAll => exact ⟨h, fun _ => rfl⟩

/-- Operations on files keep a tree, and leave at each place the file last written there. -/
lemma isTree_run (h : s.disk.IsTree) (hops : s.OnFiles ops) :
    (s.run ops).disk.IsTree ∧
      ∀ place, (s.run ops).disk.fileAt? place = lastFile? s.disk ops place := by
  induction ops generalizing s with
  | nil => exact ⟨h, fun _ => rfl⟩
  | cons op ops ih =>
    obtain ⟨htree, hleaves⟩ := isTree_step h hops.1
    obtain ⟨htree', hlast⟩ := ih htree hops.2
    refine ⟨htree', fun place => ?_⟩
    have hhome := FileOperation.leaves_of_workingDirectory (workingDirectory_step s op) place
    calc (s.run (op :: ops)).disk.fileAt? place
        = ops.foldl (FileOperation.leaves (s.step op).disk place)
          ((s.step op).disk.fileAt? place) :=
          hlast place
      _ = lastFile? s.disk (op :: ops) place := by rw [hhome, hleaves, lastFile?, List.foldl_cons]

/-- **The cache is transparent.** Whatever was written, deleted, read and forgotten before, a reader
gets the text of the file on disk, if there is a file and its bytes are UTF-8, as long as no two
files that ever stood at one place have the same time and size but other bytes. Where the operations
are on files, that is the text of the file last written at the path and not deleted since. -/
theorem read?_eq_text? (d : Disk) (ops : List FileOperation) (h : Distinguishable (Version d ops))
    (p : Path) :
    ((start d).run ops).read? p = ((start d).run ops).disk.text? p ∧
      (d.IsTree → (start d).OnFiles ops → p.NamesFile →
        ((start d).run ops).read? p = (lastFile? d ops (placeOf p)).bind File.text?) := by
  have hread : ((start d).run ops).read? p = ((start d).run ops).disk.text? p :=
    FileCache.peek?_of_honest ((accounted_run d ops).honest h p)
  refine ⟨hread, fun htree hops hp => ?_⟩
  obtain ⟨htree', hlast⟩ := isTree_run (s := start d) htree hops
  calc ((start d).run ops).read? p
      = (((start d).run ops).disk.file? p).bind File.text? := hread
    _ = (((start d).run ops).disk.fileAt? (placeOf p)).bind File.text? := by
        rw [Disk.file?_eq_fileAt? htree' hp]
    _ = (lastFile? d ops (placeOf p)).bind File.text? := by rw [hlast]; rfl

/-- A file is read, overwritten by bytes that are no text, deleted, and comes back as it was, beside
another file with its snapshot. The text kept at the first reading is in force again. -/
def comesBack : List FileOperation :=
  [.write (.ofString "/w/a.au3") ⟨File.encode "Func A".toList, 1⟩, .read (.ofString "/w/a.au3"),
    .write (.ofString "/w/a.au3") ⟨List.replicate 6 255, 2⟩, .read (.ofString "/w/a.au3"),
    .delete (.ofString "/w/a.au3"), .read (.ofString "/w/a.au3"),
    .write (.ofString "/w/b.au3") ⟨File.encode "Func B".toList, 1⟩, .read (.ofString "/w/./b.au3"),
    .invalidate (.ofString "/w/b.au3"),
    .write (.ofString "/w/a.au3") ⟨File.encode "Func A".toList, 1⟩]

lemma distinguishable_comesBack : Distinguishable (Version Disk.empty comesBack) := by
  have hwritten : ∀ v ∈ comesBack.filterMap (FileOperation.written? Disk.empty),
      ∀ w ∈ comesBack.filterMap (FileOperation.written? Disk.empty),
        v.1 = w.1 → v.2.snapshot = w.2.snapshot → v.2.bytes = w.2.bytes := by
    decide +kernel
  intro place f g hf hg
  exact hwritten (place, f) (version_empty_iff.mp hf) (place, g) (version_empty_iff.mp hg) rfl

lemma namesFile_script : (Path.ofString "/w/a.au3").NamesFile :=
  ⟨⟨by decide, by decide⟩, by decide⟩

lemma onFiles_comesBack : (start Disk.empty).OnFiles comesBack := by
  simp only [comesBack, OnFiles, FileOperation.OnFiles, namesFile_script, true_and, and_true]
  decide +kernel

/-- After these operations the reader gets the text of the file that came back. -/
theorem read?_eq_text?_comesBack :
    Distinguishable (Version Disk.empty comesBack) ∧ (start Disk.empty).OnFiles comesBack ∧
      ((start Disk.empty).run comesBack).read? (.ofString "/w/a.au3") = some "Func A".toList := by
  refine ⟨distinguishable_comesBack, onFiles_comesBack, ?_⟩
  rw [(read?_eq_text? Disk.empty comesBack distinguishable_comesBack (.ofString "/w/a.au3")).2
    Disk.isTree_empty onFiles_comesBack namesFile_script]
  decide +kernel

end CachedDisk

end AutoItServer
