import AutoItServer.Proofs.Path.Place
import Mathlib.Logic.Relation

/-!
Normal forms are canonical.

Two paths are lexically equal when one becomes the other by changes of spelling that no disk is
asked about: slashes and dots that do not count, a name together with the `..` behind it, and a `..`
that has nothing before it, at the root or where a relative path starts. Each of them may stand
before further steps.

* `Path.Respells`: one such change. `Path.LexicallyEqual`: any number of them, forth and back.
* `placeOf_join` (**compositionality**): a joined path leads from the place of the directory along
  the steps of the rest.
* `Respells.placeOf_eq`: a change of spelling keeps the place, and no path becomes absolute by it.
* `Path.joinAll`, `Spelled.lexicallyEqual_joinAll`: a path put together step by step, from the root
  or from nothing.
* `lexicallyEqual_iff` (**canonical**): lexically equal paths are those with one normal form.
-/

namespace AutoItServer

namespace Path

variable {a b p q r : Path} {n : Text} {ns : List Text} {c : Component} {cs : List Component}

/-! ### Steps of a relative path -/

/-- The root by itself. -/
def slash : Path := ⟨['/']⟩

/-- One step up. -/
def up : Path := ⟨['.', '.']⟩

/-- The dot by itself. -/
def here : Path := ⟨['.']⟩

/-- The path without any component. -/
def blank : Path := ⟨[]⟩

lemma blank_join (b : Path) : blank.join b = b := by
  rw [join, if_pos (show (List.isEmpty blank.text || _) = true from rfl)]
  split_ifs <;> rfl

lemma eq_blank_of_components (h : a.components = []) : a = blank := by
  obtain ⟨t⟩ := a
  exact congrArg Path.mk (components_eq_nil.mp h)

/-- A joined path is absolute if the directory is. -/
lemma isAbsolute_join_iff (hb : ¬ b.isAbsolute) : (a.join b).isAbsolute ↔ a.isAbsolute := by
  by_cases ha : a.components = []
  · rw [eq_blank_of_components ha, blank_join]
    exact iff_of_false hb (by decide)
  · have hroot : .root ∉ b.steps := by
      intro h
      rcases mem_filterMap_component? h with h | ⟨n, h, -⟩ <;> cases h
    rw [isAbsolute_iff_root_mem, isAbsolute_iff_root_mem, components_join ha hb,
      List.mem_append, or_iff_left hroot]

/-- **Compositionality**: a joined path leads from the place of the directory along the steps. -/
lemma placeOf_join (hb : ¬ b.isAbsolute) :
    Disk.placeOf (a.join b) = b.steps.foldl placeStep (Disk.placeOf a) := by
  by_cases ha : a.components = []
  · rw [eq_blank_of_components ha, blank_join, placeOf_eq_steps]
    rfl
  · rw [placeOf_eq, components_join ha hb, List.foldl_append, ← placeOf_eq]

/-- A component that leads somewhere: a name, or `..`. -/
def Moves (c : Component) : Prop :=
  c = .parent ∨ ∃ n, c = .name n ∧ IsPart n

lemma Moves.slash_notMem (h : Moves c) : '/' ∉ c.text := by
  obtain rfl | ⟨n, rfl, hn⟩ := h
  · decide
  · exact hn.2.1

/-- Such a component, spelled out, is read again. -/
lemma Moves.steps_text (h : Moves c) : steps ⟨c.text⟩ = [c] := by
  have hread : component? false c.text = some c := by
    obtain rfl | ⟨n, rfl, hn⟩ := h
    · rfl
    · exact component?_of_isPart hn
  rw [steps, Text.splitOnChar_of_notMem h.slash_notMem, List.filterMap_cons_some hread,
    List.filterMap_nil]

lemma Moves.not_isAbsolute (h : Moves c) : ¬ isAbsolute ⟨c.text⟩ := by
  intro habs
  obtain ⟨rest, hrest⟩ := isAbsolute_iff.mp habs
  rw [Path.mk.injEq] at hrest
  exact h.slash_notMem (hrest ▸ List.mem_cons_self)

lemma moves_parent : Moves .parent := Or.inl rfl

lemma moves_name (hn : IsPart n) : Moves (.name n) := Or.inr ⟨n, rfl, hn⟩

lemma moves_of_mem_steps (h : c ∈ p.steps) : Moves c :=
  mem_filterMap_component? h

/-- A step that is joined to a directory is the last component, also where the directory is
blank. -/
lemma components_join_move (hc : Moves c) (a : Path) :
    (a.join ⟨c.text⟩).components = a.components ++ [c] := by
  by_cases ha : a.components = []
  · have hne : (⟨c.text⟩ : Path).components ≠ .current :: [c] := by
      obtain rfl | ⟨n, rfl, hn⟩ := hc
      · decide
      · intro h
        have hmem : Component.current ∈ (⟨n⟩ : Path).components := h ▸ List.mem_cons_self
        rw [show (⟨n⟩ : Path) = fromHere [n] from rfl,
          components_fromHere (by simpa using hn)] at hmem
        simp at hmem
    have hsteps := hc.steps_text
    rw [eq_blank_of_components ha, blank_join]
    rcases components_cases ⟨c.text⟩ with ⟨habs, -⟩ | ⟨-, h | h⟩
    · exact absurd habs hc.not_isAbsolute
    · exact absurd (h.trans (by rw [hsteps])) hne
    · rw [h, hsteps]
      rfl
  · rw [components_join ha hc.not_isAbsolute, hc.steps_text]

/-! ### Changes of spelling -/

/-- One change of the spelling of a path. -/
inductive Respells : Path → Path → Prop where
  | same {p q : Path} (h : p.same q) : Respells p q
  | back {a : Path} {n : Text} (hn : IsPart n) : Respells ((a.join ⟨n⟩).join up) a
  | root : Respells (slash.join up) slash
  | start : Respells up blank
  | dot : Respells here blank
  | join {p q b : Path} (h : Respells p q) (hb : ¬ b.isAbsolute) : Respells (p.join b) (q.join b)

/-- Paths that become each other by changes of spelling. -/
def LexicallyEqual : Path → Path → Prop :=
  Relation.EqvGen Respells

/-- **A change of spelling** keeps the place, and no path becomes absolute by it. -/
lemma Respells.placeOf_eq (h : Respells p q) :
    (p.isAbsolute ↔ q.isAbsolute) ∧ Disk.placeOf p = Disk.placeOf q := by
  induction h with
  | same h =>
    have hcomponents := same_iff.mp h
    rw [isAbsolute_iff_root_mem, isAbsolute_iff_root_mem, Path.placeOf_eq,
      Path.placeOf_eq, hcomponents]
    exact ⟨Iff.rfl, rfl⟩
  | @back a n hn =>
    have hname : ¬ isAbsolute ⟨n⟩ := (moves_name hn).not_isAbsolute
    have hup : ¬ up.isAbsolute := by decide
    refine ⟨(isAbsolute_join_iff hup).trans (isAbsolute_join_iff hname), ?_⟩
    rw [placeOf_join hup, placeOf_join hname,
      show steps ⟨n⟩ = [.name n] from (moves_name hn).steps_text,
      show up.steps = [.parent] from moves_parent.steps_text]
    exact List.dropLast_concat
  | root => decide
  | start => decide
  | dot => decide
  | join _ hb ih => exact ⟨by rw [isAbsolute_join_iff hb, isAbsolute_join_iff hb, ih.1],
      by rw [placeOf_join hb, placeOf_join hb, ih.2]⟩

namespace LexicallyEqual

lemma symm (h : LexicallyEqual p q) : LexicallyEqual q p :=
  Relation.EqvGen.symm _ _ h

lemma trans (h : LexicallyEqual p q) (h' : LexicallyEqual q r) : LexicallyEqual p r :=
  Relation.EqvGen.trans _ _ _ h h'

lemma of_respells (h : Respells p q) : LexicallyEqual p q :=
  Relation.EqvGen.rel _ _ h

/-- Paths with the same components are lexically equal. -/
lemma of_components_eq (h : p.components = q.components) : LexicallyEqual p q :=
  of_respells (.same (same_iff.mpr h))

/-- Lexically equal paths lead to one place, and both are absolute or none is. -/
lemma placeOf_eq (h : LexicallyEqual p q) :
    (p.isAbsolute ↔ q.isAbsolute) ∧ Disk.placeOf p = Disk.placeOf q := by
  induction h with
  | rel p q h => exact h.placeOf_eq
  | refl p => exact ⟨Iff.rfl, rfl⟩
  | symm p q _ ih => exact ⟨ih.1.symm, ih.2.symm⟩
  | trans p q r _ _ ih ih' => exact ⟨ih.1.trans ih'.1, ih.2.trans ih'.2⟩

/-- The spelling of a directory may change before further steps. -/
lemma join (h : LexicallyEqual p q) (hb : ¬ b.isAbsolute) :
    LexicallyEqual (p.join b) (q.join b) := by
  induction h with
  | rel p q h => exact of_respells (h.join hb)
  | refl p => exact Relation.EqvGen.refl _
  | symm p q _ ih => exact ih.symm
  | trans p q r _ _ ih ih' => exact ih.trans ih'

end LexicallyEqual

/-! ### Paths step by step -/

/-- A directory with further steps behind it. -/
def joinAll (a : Path) (cs : List Component) : Path :=
  cs.foldl (fun a c => a.join ⟨c.text⟩) a

lemma components_joinAll (hcs : ∀ c ∈ cs, Moves c) (a : Path) :
    (a.joinAll cs).components = a.components ++ cs := by
  induction cs generalizing a with
  | nil => rw [List.append_nil]; rfl
  | cons c cs ih =>
    rw [List.forall_mem_cons] at hcs
    rw [List.append_cons, ← components_join_move hcs.1]
    exact ih hcs.2 _

lemma LexicallyEqual.joinAll (h : LexicallyEqual p q) (hcs : ∀ c ∈ cs, Moves c) :
    LexicallyEqual (p.joinAll cs) (q.joinAll cs) := by
  induction cs generalizing p q with
  | nil => exact h
  | cons c cs ih =>
    rw [List.forall_mem_cons] at hcs
    exact ih (h.join hcs.1.not_isAbsolute) hcs.2

/-- A path is put together from what stands before its steps. -/
lemma lexicallyEqual_joinAll_steps (h : p.components = a.components ++ p.steps) :
    LexicallyEqual p (a.joinAll p.steps) := by
  refine .of_components_eq ?_
  rw [components_joinAll fun _ => moves_of_mem_steps, h]

/-- Paths given by the names in them, behind a start at which a `..` has nothing to remove. -/
structure Spelled (path : List Text → Path) (start : List Component) : Prop where
  components_eq : ∀ ns, (∀ n ∈ ns, IsPart n) → (path ns).components = start ++ ns.map .name
  join_up : LexicallyEqual ((path []).join up) (path [])

/-- The paths of places start at the root. -/
lemma spelled_atPlace : Spelled atPlace [.root] :=
  ⟨fun _ hns => components_atPlace hns, .of_respells .root⟩

/-- The relative paths in normal form start with nothing. -/
lemma spelled_fromHere : Spelled fromHere [] :=
  ⟨fun _ hns => components_fromHere hns, .of_respells .start⟩

section Spelled

variable {path : List Text → Path} {start : List Component}

/-- One more name leads one level down. -/
lemma Spelled.lexicallyEqual_name (h : Spelled path start) (hns : ∀ m ∈ ns, IsPart m)
    (hn : IsPart n) :
    LexicallyEqual ((path ns).join ⟨n⟩) (path (ns ++ [n])) := by
  have hparts : ∀ m ∈ ns ++ [n], IsPart m := by
    simpa [or_imp, forall_and] using And.intro hns hn
  have hjoin : ((path ns).join ⟨n⟩).components = (path ns).components ++ [.name n] :=
    components_join_move (moves_name hn) (path ns)
  refine .of_components_eq ?_
  rw [hjoin, h.components_eq ns hns, h.components_eq _ hparts, List.map_append, List.append_assoc]
  rfl

/-- One more step leads to the names that it leaves. -/
lemma Spelled.lexicallyEqual_step (h : Spelled path start) (hns : ∀ n ∈ ns, IsPart n)
    (hc : Moves c) :
    LexicallyEqual ((path ns).join ⟨c.text⟩) (path (placeStep ns c)) := by
  obtain rfl | ⟨m, rfl, hm⟩ := hc
  · rcases List.eq_nil_or_concat' ns with rfl | ⟨ms, m, rfl⟩
    · exact h.join_up
    · -- the name is split off, and goes together with the step up
      have hm : IsPart m := hns m (List.mem_append_right _ List.mem_cons_self)
      have hms : ∀ n ∈ ms, IsPart n := fun n hn => hns n (List.mem_append_left _ hn)
      rw [placeStep, List.dropLast_concat]
      exact ((h.lexicallyEqual_name hms hm).symm.join moves_parent.not_isAbsolute).trans
        (.of_respells (.back hm))
  · exact h.lexicallyEqual_name hns hm

/-- **Steps one after the other** lead to the names that they leave. -/
lemma Spelled.lexicallyEqual_joinAll (h : Spelled path start) (hns : ∀ n ∈ ns, IsPart n)
    (hcs : ∀ c ∈ cs, Moves c) :
    LexicallyEqual ((path ns).joinAll cs) (path (cs.foldl placeStep ns)) := by
  induction cs generalizing ns with
  | nil => exact Relation.EqvGen.refl _
  | cons c cs ih =>
    rw [List.forall_mem_cons] at hcs
    have hparts : ∀ n ∈ [c].foldl placeStep ns, IsPart n := by
      refine isPart_of_mem_foldl (fun n hn => ?_) hns
      obtain rfl := List.mem_singleton.mp hn
      obtain h | ⟨m, h, hm⟩ := hcs.1
      · cases h
      · cases h
        exact hm
    exact ((h.lexicallyEqual_step hns hcs.1).joinAll hcs.2).trans (ih hparts hcs.2)

/-- A path that starts like these becomes the one with the names that its steps leave. -/
lemma Spelled.lexicallyEqual_placeOf (h : Spelled path start)
    (hp : p.components = start ++ p.steps) :
    LexicallyEqual p (path (Disk.placeOf p)) := by
  have hspelled : LexicallyEqual p ((path []).joinAll p.steps) := by
    refine lexicallyEqual_joinAll_steps ?_
    rw [h.components_eq [] (List.forall_mem_nil _), List.map_nil, List.append_nil, ← hp]
  rw [placeOf_eq_steps]
  exact hspelled.trans
    (h.lexicallyEqual_joinAll (List.forall_mem_nil _) fun _ => moves_of_mem_steps)

end Spelled

/-! ### Normal forms -/

/-- Every absolute path becomes the path of its place by changes of spelling. -/
lemma lexicallyEqual_atPlace (hp : p.isAbsolute) : LexicallyEqual p (atPlace (Disk.placeOf p)) := by
  rcases components_cases p with ⟨-, h⟩ | ⟨hrelative, -⟩
  · exact spelled_atPlace.lexicallyEqual_placeOf h
  · exact absurd hp hrelative

/-- Every relative path becomes one without dots by changes of spelling. -/
lemma lexicallyEqual_fromHere (hp : ¬ p.isAbsolute) :
    LexicallyEqual p (fromHere (Disk.placeOf p)) := by
  rcases components_cases p with ⟨habsolute, -⟩ | ⟨-, h | h⟩
  · exact absurd habsolute hp
  · -- the dot at the start goes first
    have hsteps : ∀ c ∈ p.steps, Moves c := fun _ => moves_of_mem_steps
    have hspelled : LexicallyEqual p (here.joinAll p.steps) := lexicallyEqual_joinAll_steps h
    have hdot : LexicallyEqual here (fromHere []) := .of_respells .dot
    rw [placeOf_eq_steps]
    exact (hspelled.trans (hdot.joinAll hsteps)).trans
      (spelled_fromHere.lexicallyEqual_joinAll (List.forall_mem_nil _) hsteps)
  · exact spelled_fromHere.lexicallyEqual_placeOf h

/-- The path of a place has no dots. -/
lemma isNormal_atPlace (hns : ∀ n ∈ ns, IsPart n) : (atPlace ns).IsNormal := by
  intro c hc
  rw [components_atPlace hns] at hc
  rcases List.mem_cons.mp hc with rfl | hc
  · exact Or.inl rfl
  · obtain ⟨n, -, rfl⟩ := List.mem_map.mp hc
    exact Or.inr rfl

/-- **Normal forms are canonical**: the paths lexically equal to a path are those with its normal
form. -/
lemma lexicallyEqual_iff : LexicallyEqual p q ↔ q.normalize? = p.normalize? := by
  rw [normalize?_eq_iff]
  constructor
  · intro h
    exact ⟨h.placeOf_eq.1.symm, h.placeOf_eq.2.symm⟩
  · rintro ⟨habs, hplace⟩
    by_cases hp : p.isAbsolute
    · exact (lexicallyEqual_atPlace hp).trans (hplace ▸ (lexicallyEqual_atPlace (habs.mpr hp)).symm)
    · have hq : ¬ q.isAbsolute := fun hq => hp (habs.mp hq)
      exact (lexicallyEqual_fromHere hp).trans (hplace ▸ (lexicallyEqual_fromHere hq).symm)

/-- Relative paths that lead from a directory to one place are lexically equal in it. -/
lemma lexicallyEqual_join_of_steps (hp : ¬ p.isAbsolute) (hq : ¬ q.isAbsolute)
    (h : p.steps.foldl placeStep (Disk.placeOf a) = q.steps.foldl placeStep (Disk.placeOf a)) :
    LexicallyEqual (a.join p) (a.join q) := by
  rw [lexicallyEqual_iff, normalize?_eq_iff, isAbsolute_join_iff hp, isAbsolute_join_iff hq,
    placeOf_join hp, placeOf_join hq, h]
  exact ⟨Iff.rfl, rfl⟩

/-- Normal forms are lexically equal only when they are spelled alike. -/
lemma IsReduced.eq_of_lexicallyEqual (hp : p.IsReduced) (hq : q.IsReduced ∨ q.normalize? = none)
    (h : LexicallyEqual p q) : p = q := by
  have hnormal : q.normalize? = some p := (lexicallyEqual_iff.mp h).trans hp
  rcases hq with hq | hq
  · exact Option.some.inj (hnormal.symm.trans hq)
  · rw [hq] at hnormal
    cases hnormal

end Path

end AutoItServer
