import AutoItServer.Disk.Cache
import AutoItServer.Proofs.Data.OrderedMap
import AutoItServer.Proofs.Disk.Frame

/-!
When a kept text is the one on disk.

A text is used again as long as the file has the time and size at which it was read. A file can be
overwritten without changing either, so this is right only for files that nobody wrote since.

* `FileCache.Honest`: what is kept for a path is the text of the file there, if that file has the
  snapshot kept with it.
* `peek?_of_honest`: the text as a reader gets it is then the one on disk.
* `find?_read`: what a reading adds to what is kept.
* `Honest.readAll`, `honest_invalidate`, `Honest.write`, `Honest.delete`: reading, forgetting, and
  changes of other files keep it so.
-/

namespace AutoItServer

namespace FileCache

variable {c : FileCache} {d : Disk} {p q : Path}

/-- What is kept for a path is the text of the file at the place it names, if that has the snapshot
kept. -/
def Honest (c : FileCache) (d : Disk) (p : Path) : Prop :=
  ∀ s t f place, c.entries.find? p.components = some (s, t) → d.placeFor? p = some place →
    d.node? place = some (.file f) → f.snapshot = s → f.text? = some t

/-- **A reader gets the text on disk**, where what is kept is honest. -/
lemma peek?_of_honest (h : c.Honest d p) : c.peek? d p = d.text? p := by
  rw [peek?, Disk.text?]
  cases hfile : d.file? p with
  | none => rfl
  | some f =>
    show (c.fresh? p f.snapshot).or f.text? = f.text?
    cases hfresh : c.fresh? p f.snapshot with
    | none => rfl
    | some t =>
      rw [fresh?] at hfresh
      split at hfresh
      · rename_i s t' hkept
        split_ifs at hfresh with hs
        obtain rfl := Option.some.inj hfresh
        obtain ⟨place, hplace, hnode⟩ := Disk.file?_eq_some_iff_locate?.mp hfile
        exact (h s t' f place hkept (Disk.placeFor?_of_locate? hplace) hnode hs.symm).symm
      · cases hfresh

lemma honest_empty (d : Disk) (p : Path) : FileCache.empty.Honest d p := by
  intro s t f place hkept
  simp [empty] at hkept

/-- What is kept after a reading was kept before, or is the text of the file read, with its
snapshot. -/
lemma find?_read {k : List Path.Component} {s : Snapshot} {t : Text}
    (h : (c.read d q).entries.find? k = some (s, t)) :
    c.entries.find? k = some (s, t) ∨
      k = q.components ∧ ∃ f, d.file? q = some f ∧ f.snapshot = s ∧ f.text? = some t := by
  rw [FileCache.read] at h
  split at h
  · exact Or.inl h
  · rename_i f hfile
    split_ifs at h
    · exact Or.inl h
    · split at h
      · rename_i u hu
        rw [insert, OrderedMap.find?_insert] at h
        split_ifs at h with hpath
        · obtain ⟨rfl, rfl⟩ := Prod.mk.inj (Option.some.inj h)
          exact Or.inr ⟨(beq_iff_eq.mp hpath).symm, f, hfile, rfl, hu⟩
        · exact Or.inl h
      · exact Or.inl h

/-- What is read is the text on disk. -/
lemma Honest.read (h : c.Honest d p) (q : Path) : (c.read d q).Honest d p := by
  intro s t g place hkept hplace hnode hs
  rcases find?_read hkept with hkept | ⟨hpath, f, hfile, -, ht⟩
  · exact h s t g place hkept hplace hnode hs
  · -- the same components name the same place
    rw [Disk.placeFor?_congr hpath] at hplace
    rw [Disk.node?_of_file? hfile hplace] at hnode
    rwa [← Node.file.inj (Option.some.inj hnode)]

lemma Honest.readAll (h : c.Honest d p) (paths : List Path) : (c.readAll d paths).Honest d p := by
  rw [FileCache.readAll]
  induction paths generalizing c with
  | nil => exact h
  | cons q paths ih => exact ih (h.read q)

/-- Nothing is kept for a path that was forgotten; the others are as before. -/
lemma honest_invalidate (h : q.components ≠ p.components → c.Honest d p) :
    (c.invalidate q).Honest d p := by
  intro s t f place hkept
  rw [invalidate, OrderedMap.find?_erase] at hkept
  split_ifs at hkept with hpath
  exact h (by simpa using hpath) s t f place hkept

/-- Writing a file makes no other text wrong. -/
lemma Honest.write (h : c.Honest d p) (hplace : d.placeFor? p ≠ d.placeFor? q) (f : File) :
    c.Honest (d.write q f) p := by
  intro s t g place hkept hp hnode
  rw [Disk.placeFor?_of_workingDirectory (Disk.workingDirectory_write d q f)] at hp
  exact h s t g place hkept hp ((Disk.node?_write_iff (hp ▸ hplace.symm)).mp hnode)

/-- Deleting a file makes no text wrong. -/
lemma Honest.delete (h : c.Honest d p) (q : Path) : c.Honest (d.delete q) p := by
  intro s t g place hkept hp hnode
  rw [Disk.placeFor?_of_workingDirectory (Disk.workingDirectory_delete d q)] at hp
  exact h s t g place hkept hp (Disk.node?_delete hnode)

end FileCache

end AutoItServer
