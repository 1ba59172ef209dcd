import AutoItServer.Proofs.Include.Generation
import Mathlib.Data.List.Induction
import Mathlib.Data.List.Nodup
import Mathlib.Tactic.ByContra

/-!
What the include cache remembers, told from the history of its use.

The entries stand in the order in which they were last stored, the newest in front. A store puts its
entry in front and cuts the list at the capacity, so the document that has to go is the one whose
last store is oldest.

* `step_cases`: an operation either stores, or drops the entries it asks to forget.
* `evicted_eq_nil`, `evicted_of_full`: a document is evicted when another one is stored in a full
  cache, and it is the last of the list.
* `IncludeCache.Stands`: an entry that nothing has replaced, forgotten or evicted since it was
  stored.
* `Recorded`, `recorded_run`: the invariant that ties the list to the history.
* `cache_refines_history` (**refinement**): what is found, what is evicted and what is counted, by
  the history alone.
-/

namespace AutoItServer

namespace IncludeCache

variable {c : IncludeCache} {op : CacheOperation} {u v : Uri} {e : IncludeEntry}

/-! ### One operation -/

/-- **What an operation does to the entries.** It stores one in front and cuts the list, or it drops
those it asks to forget. -/
lemma step_cases (c : IncludeCache) (op : CacheOperation) :
    (c.stored? op = none ∧
      (c.step op).1.entries = c.entries.filter fun x => !op.forgets x.1 x.2) ∨
    ∃ u e, c.stored? op = some (u, e) ∧
      (c.step op).1.entries = ((u, e) :: c.entries.filter fun x => !(x.1 == u)).take
        c.capacity := by
  cases op with
  | store u g e =>
    by_cases h : c.generation = g
    · refine .inr ⟨u, e, ?_, ?_⟩
      · rw [stored?, if_pos ((answer_store_iff c u g e).mpr h)]
      · rw [step, store, if_pos h]
        rfl
    · refine .inl ⟨?_, ?_⟩
      · rw [stored?, if_neg (mt (answer_store_iff c u g e).mp h)]
      · rw [step, store, if_neg h]
        simp [CacheOperation.forgets]
  | begin => exact .inl ⟨rfl, by simp [step, CacheOperation.forgets]⟩
  | get => exact .inl ⟨rfl, by simp [step, CacheOperation.forgets]⟩
  | remove => exact .inl ⟨rfl, rfl⟩
  | invalidateContaining => exact .inl ⟨rfl, rfl⟩
  | invalidateAll => exact .inl ⟨rfl, by simp [step, invalidateAll, CacheOperation.forgets]⟩

/-- A store does not ask to forget anything. -/
lemma forgets_of_stored {x : Uri × IncludeEntry} (h : c.stored? op = some x) (v : Uri)
    (d : IncludeEntry) : op.forgets v d = false := by
  cases op with
  | store => rfl
  | _ => cases h

/-- A store is a store for one document only. -/
lemma stored?_ne (h : c.stored? op = some (u, e)) (hvu : v ≠ u) (d : IncludeEntry) :
    c.stored? op ≠ some (v, d) := by
  intro hd
  exact hvu (congrArg Prod.fst (Option.some.inj (hd.symm.trans h)))

lemma capacity_step (c : IncludeCache) (op : CacheOperation) :
    (c.step op).1.capacity = c.capacity := by
  cases op with
  | store u g e =>
    simp only [step, store]
    split <;> rfl
  | _ => rfl

/-- A document has one entry at most. -/
lemma eq_of_mem (h : c.residents.Nodup) {d : IncludeEntry} (he : (u, e) ∈ c.entries)
    (hd : (u, d) ∈ c.entries) : e = d :=
  congrArg Prod.snd (List.inj_on_of_nodup_map h he hd rfl)

lemma mem_residents : u ∈ c.residents ↔ ∃ e, (u, e) ∈ c.entries := by
  simp [residents]

lemma residents_concat {front : List (Uri × IncludeEntry)} {x : Uri × IncludeEntry}
    (h : c.entries = front ++ [x]) : c.residents = front.map Prod.fst ++ [x.1] := by
  rw [residents, h, List.map_append, List.map_singleton]

lemma nodup_step (h : c.residents.Nodup) (op : CacheOperation) : (c.step op).1.residents.Nodup := by
  rw [residents]
  obtain ⟨-, hentries⟩ | ⟨u, e, -, hentries⟩ := step_cases c op
  · rw [hentries]
    exact h.sublist (List.filter_sublist.map _)
  · rw [hentries]
    refine List.Nodup.sublist ((List.take_sublist _ _).map _) ?_
    rw [List.map_cons, List.nodup_cons]
    exact ⟨by simp, h.sublist (List.filter_sublist.map _)⟩

lemma size_step_le (h : c.size ≤ c.capacity) (op : CacheOperation) :
    (c.step op).1.size ≤ (c.step op).1.capacity := by
  rw [capacity_step, size]
  obtain ⟨-, hentries⟩ | ⟨u, e, -, hentries⟩ := step_cases c op
  · rw [hentries]
    exact Nat.le_trans (List.length_filter_le _ _) h
  · rw [hentries]
    exact List.length_take_le _ _

/-- The entry of a document is found by the key it was stored with. -/
lemma get?_eq_some_iff (h : c.residents.Nodup) (u : Uri) (key : IncludeKey) (e : IncludeEntry) :
    c.get? u key = some e ↔ e.key = key ∧ (u, e) ∈ c.entries := by
  have hentry : c.entry? u = some e ↔ (u, e) ∈ c.entries := by
    constructor
    · intro hfind
      obtain ⟨⟨v, d⟩, hx, rfl⟩ := Option.map_eq_some_iff.mp hfind
      obtain rfl : v = u := by simpa using List.find?_some hx
      exact List.mem_of_find?_eq_some hx
    · intro hmem
      have hsome : (c.entries.find? fun x => x.1 == u).isSome :=
        List.find?_isSome.mpr ⟨(u, e), hmem, beq_self_eq_true u⟩
      obtain ⟨⟨v, d⟩, hx⟩ := Option.isSome_iff_exists.mp hsome
      obtain rfl : v = u := by simpa using List.find?_some hx
      unfold entry?
      rw [hx, eq_of_mem h hmem (List.mem_of_find?_eq_some hx)]
      rfl
  rw [get?, Option.filter_eq_some_iff, hentry, decide_eq_true_iff, and_comm]

/-! ### Evictions -/

lemma mem_evicted : v ∈ c.evicted op ↔
    ∃ e, (v, e) ∈ c.entries ∧ op.forgets v e = false ∧ v ∉ (c.step op).1.residents := by
  simp [evicted]

/-- What a store does to the entries. -/
lemma entries_step_of_stored (h : c.stored? op = some (u, e)) : (c.step op).1.entries =
    ((u, e) :: c.entries.filter fun x => !(x.1 == u)).take c.capacity := by
  obtain ⟨hnone, -⟩ | ⟨v, d, hstored, hstep⟩ := step_cases c op
  · rw [hnone] at h
    cases h
  · obtain ⟨rfl, rfl⟩ := Prod.mk.inj (Option.some.inj (h.symm.trans hstored))
    exact hstep

/-- As long as there is room, a store drops no document. -/
lemma mem_residents_of_room (hstored : c.stored? op = some (u, e)) (hsize : c.size ≤ c.capacity)
    (hroom : u ∈ c.residents ∨ c.size < c.capacity) (hv : v ∈ c.residents) :
    v ∈ (c.step op).1.residents := by
  have hlength : (c.entries.filter fun x => !(x.1 == u)).length < c.capacity := by
    obtain hu | hlt := hroom
    · obtain ⟨d, hd⟩ := mem_residents.mp hu
      exact Nat.lt_of_lt_of_le
        (List.length_filter_lt_length_iff_exists.mpr ⟨(u, d), hd, by simp⟩) hsize
    · exact Nat.lt_of_le_of_lt (List.length_filter_le _ _) hlt
  obtain ⟨d, hd⟩ := mem_residents.mp hv
  rw [mem_residents, entries_step_of_stored hstored, List.take_of_length_le hlength]
  by_cases hvu : v = u
  · exact ⟨e, by simp [hvu]⟩
  · exact ⟨d, List.mem_cons_of_mem _ (List.mem_filter.mpr ⟨hd, by simpa using hvu⟩)⟩

/-- In a full cache a new document takes the place of the last one. -/
lemma entries_step_of_full {front : List (Uri × IncludeEntry)} {x : Uri × IncludeEntry}
    (hstored : c.stored? op = some (u, e)) (hu : u ∉ c.residents) (hfull : c.size = c.capacity)
    (hentries : c.entries = front ++ [x]) : (c.step op).1.entries = (u, e) :: front := by
  have hothers : (c.entries.filter fun y => !(y.1 == u)) = c.entries := by
    refine List.filter_eq_self.mpr fun y hy => ?_
    have hne : y.1 ≠ u := fun h => hu (h ▸ List.mem_map_of_mem hy)
    simpa using hne
  have hcapacity : c.capacity = front.length + 1 := by
    rw [← hfull, size, hentries, List.length_append, List.length_singleton]
  rw [entries_step_of_stored hstored, hothers, hentries, hcapacity, List.take_succ_cons,
    List.take_left]

/-- Nothing is evicted but by a store that finds no room. -/
lemma evicted_eq_nil (hsize : c.size ≤ c.capacity)
    (hroom : ∀ u e, c.stored? op = some (u, e) → u ∈ c.residents ∨ c.size < c.capacity) :
    c.evicted op = [] := by
  refine List.eq_nil_iff_forall_not_mem.mpr fun v hv => ?_
  obtain ⟨e, hmem, hforgets, hgone⟩ := mem_evicted.mp hv
  obtain ⟨-, hstep⟩ | ⟨u, d, hstored, -⟩ := step_cases c op
  · refine hgone (mem_residents.mpr ⟨e, ?_⟩)
    rw [hstep, List.mem_filter]
    exact ⟨hmem, by simp [hforgets]⟩
  · exact hgone (mem_residents_of_room hstored hsize (hroom u d hstored)
      (mem_residents.mpr ⟨e, hmem⟩))

/-- **Eviction.** When another document is stored in a full cache, the last of the list has to
go. -/
lemma evicted_of_full {front : List (Uri × IncludeEntry)} {x : Uri × IncludeEntry}
    (hnodup : c.residents.Nodup) (hstored : c.stored? op = some (u, e)) (hu : u ∉ c.residents)
    (hfull : c.size = c.capacity) (hentries : c.entries = front ++ [x]) : c.evicted op = [x.1] := by
  have hafter : (c.step op).1.residents = u :: front.map Prod.fst := by
    rw [residents, entries_step_of_full hstored hu hfull hentries, List.map_cons]
  have hgone : x.1 ∉ u :: front.map Prod.fst := by
    rw [residents_concat hentries] at hnodup hu
    rw [List.mem_cons, not_or]
    refine ⟨fun h => hu (by simp [h]), fun hx => ?_⟩
    exact (List.nodup_append.mp hnodup).2.2 x.1 hx x.1 (List.mem_singleton_self _) rfl
  have hfront : (front.filter fun y => !op.forgets y.1 y.2 &&
      !(u :: front.map Prod.fst).contains y.1) = [] := by
    refine List.filter_eq_nil_iff.mpr fun y hy => ?_
    simp [List.mem_map_of_mem hy]
  rw [evicted, hafter, hentries, List.filter_append, hfront, List.nil_append,
    List.filter_cons_of_pos (by simp [forgets_of_stored hstored, hgone]), List.filter_nil,
    List.map_singleton]

/-! ### Histories -/

variable {capacity i j : Nat} {ops : List CacheOperation}

/-- Something happens at an index of a list of operations: the operation there, applied to the cache
as it is by then, has a property. -/
def HappensAt (capacity : Nat) (ops : List CacheOperation) (i : Nat)
    (P : IncludeCache → CacheOperation → Prop) : Prop :=
  ∃ op, ops[i]? = some op ∧ P ((withCapacity capacity).run (ops.take i)) op

/-- The operation at an index stores an entry for a document. -/
def StoresAt (capacity : Nat) (ops : List CacheOperation) (i : Nat) (u : Uri) (e : IncludeEntry) :
    Prop :=
  HappensAt capacity ops i fun c op => c.stored? op = some (u, e)

/-- The operation at an index asks to forget an entry of a document. -/
def ForgetsAt (capacity : Nat) (ops : List CacheOperation) (i : Nat) (u : Uri) (e : IncludeEntry) :
    Prop :=
  HappensAt capacity ops i fun _ op => op.forgets u e

/-- The operation at an index evicts a document. -/
def EvictsAt (capacity : Nat) (ops : List CacheOperation) (i : Nat) (u : Uri) : Prop :=
  HappensAt capacity ops i fun c op => u ∈ c.evicted op

/-- The operation at an index stored an entry for a document, and no later one stored another. -/
def LastStore (capacity : Nat) (ops : List CacheOperation) (i : Nat) (u : Uri) (e : IncludeEntry) :
    Prop :=
  StoresAt capacity ops i u e ∧ ∀ d j, i < j → ¬ StoresAt capacity ops j u d

/-- An entry stands: it is what was stored last for a document, and since then it was not forgotten
and the document was not evicted. -/
def Stands (capacity : Nat) (ops : List CacheOperation) (u : Uri) (e : IncludeEntry) : Prop :=
  ∃ i, LastStore capacity ops i u e ∧ (∀ j, i < j → ¬ ForgetsAt capacity ops j u e) ∧
    ∀ j, i < j → ¬ EvictsAt capacity ops j u

/-- The last store for one document came before the last store for another. -/
def Older (capacity : Nat) (ops : List CacheOperation) (v w : Uri) : Prop :=
  ∃ i j d e, LastStore capacity ops i v d ∧ LastStore capacity ops j w e ∧ i < j

variable {P : IncludeCache → CacheOperation → Prop}

lemma HappensAt.lt (h : HappensAt capacity ops i P) : i < ops.length := by
  obtain ⟨op, hop, -⟩ := h
  exact (List.getElem?_eq_some_iff.mp hop).1

/-- Nothing happens after the last operation. -/
lemma never_last (j : Nat) (hj : ops.length < j) : ¬ HappensAt capacity (ops ++ [op]) j P := by
  intro h
  have hlt := h.lt
  rw [List.length_append, List.length_singleton] at hlt
  omega

/-- What happens up to one more operation. -/
lemma happensAt_concat : HappensAt capacity (ops ++ [op]) i P ↔
    HappensAt capacity ops i P ∨ i = ops.length ∧ P ((withCapacity capacity).run ops) op := by
  rcases Nat.lt_trichotomy i ops.length with hlt | rfl | hgt
  · rw [HappensAt, List.getElem?_append_left hlt, List.take_append_of_le_length (Nat.le_of_lt hlt),
      ← HappensAt]
    simp [Nat.ne_of_lt hlt]
  · simp [HappensAt]
  · refine iff_of_false (never_last i hgt) ?_
    rintro (h | ⟨rfl, -⟩)
    · exact Nat.lt_asymm h.lt hgt
    · exact Nat.lt_irrefl _ hgt

/-- What does not happen after an index, up to one more operation. -/
lemma never_concat (hi : i < ops.length) :
    (∀ j, i < j → ¬ HappensAt capacity (ops ++ [op]) j P) ↔
      (∀ j, i < j → ¬ HappensAt capacity ops j P) ∧ ¬ P ((withCapacity capacity).run ops) op := by
  simp only [happensAt_concat, not_or]
  constructor
  · intro h
    exact ⟨fun j hj => (h j hj).1, fun hop => (h ops.length hi).2 ⟨rfl, hop⟩⟩
  · rintro ⟨h, hop⟩ j hj
    exact ⟨h j hj, fun hlast => hop hlast.2⟩

/-- What an operation stores is the last store so far. -/
lemma lastStore_last (h : ((withCapacity capacity).run ops).stored? op = some (u, e)) :
    LastStore capacity (ops ++ [op]) ops.length u e :=
  ⟨happensAt_concat.mpr (.inr ⟨rfl, h⟩), fun _ => never_last⟩

/-- A store stays the last one until something else is stored for the document. -/
lemma lastStore_concat (hi : i < ops.length) : LastStore capacity (ops ++ [op]) i u e ↔
    LastStore capacity ops i u e ∧
      ∀ d, ((withCapacity capacity).run ops).stored? op ≠ some (u, d) := by
  have hstores : StoresAt capacity (ops ++ [op]) i u e ↔ StoresAt capacity ops i u e := by
    rw [StoresAt, happensAt_concat, or_iff_left fun h => Nat.ne_of_lt hi h.1, StoresAt]
  have hother : ∀ d, (∀ j, i < j → ¬ StoresAt capacity (ops ++ [op]) j u d) ↔
      (∀ j, i < j → ¬ StoresAt capacity ops j u d) ∧
        ((withCapacity capacity).run ops).stored? op ≠ some (u, d) := fun d => never_concat hi
  rw [LastStore, hstores, forall_congr' hother, forall_and, ← and_assoc, LastStore]

/-- **One more operation.** The entry that it stores stands, and so do the entries that stood before
and that it neither replaces nor forgets nor evicts. -/
lemma stands_concat : Stands capacity (ops ++ [op]) u e ↔
    ((withCapacity capacity).run ops).stored? op = some (u, e) ∨
    Stands capacity ops u e ∧ (∀ d, ((withCapacity capacity).run ops).stored? op ≠ some (u, d)) ∧
      op.forgets u e = false ∧ u ∉ ((withCapacity capacity).run ops).evicted op := by
  constructor
  · rintro ⟨i, hlast, hforgets, hevicts⟩
    obtain hstores | ⟨-, hstored⟩ := happensAt_concat.mp hlast.1
    · have hi := hstores.lt
      obtain ⟨hlast, hother⟩ := (lastStore_concat hi).mp hlast
      obtain ⟨hforgets, hforgets'⟩ := (never_concat hi).mp hforgets
      obtain ⟨hevicts, hevicts'⟩ := (never_concat hi).mp hevicts
      exact .inr ⟨⟨i, hlast, hforgets, hevicts⟩, hother, by simpa using hforgets', hevicts'⟩
    · exact .inl hstored
  · rintro (hstored | ⟨⟨i, hlast, hforgets, hevicts⟩, hother, hforgets', hevicts'⟩)
    · exact ⟨ops.length, lastStore_last hstored, never_last, never_last⟩
    · have hi := hlast.1.lt
      exact ⟨i, (lastStore_concat hi).mpr ⟨hlast, hother⟩,
        (never_concat hi).mpr ⟨hforgets, by simpa using hforgets'⟩,
        (never_concat hi).mpr ⟨hevicts, hevicts'⟩⟩

/-! ### The list and the history -/

/-- What is remembered after a store comes from it or from before. -/
lemma mem_of_mem_step_of_stored (hstored : c.stored? op = some (v, e)) {x : Uri × IncludeEntry}
    (hx : x ∈ (c.step op).1.entries) : x = (v, e) ∨ x ∈ c.entries ∧ x.1 ≠ v := by
  rw [entries_step_of_stored hstored] at hx
  obtain rfl | hx := List.mem_cons.mp (List.mem_of_mem_take hx)
  · exact .inl rfl
  · exact .inr (by simpa using List.mem_filter.mp hx)

/-- **What is remembered after an operation**: what it stores, and what was there before and is
neither replaced nor forgotten nor evicted. -/
lemma mem_entries_step (hnodup : c.residents.Nodup) (hpos : 0 < c.capacity) :
    (u, e) ∈ (c.step op).1.entries ↔ c.stored? op = some (u, e) ∨
      (u, e) ∈ c.entries ∧ (∀ d, c.stored? op ≠ some (u, d)) ∧ op.forgets u e = false ∧
        u ∉ c.evicted op := by
  have hkept : (u, e) ∈ (c.step op).1.entries → u ∉ c.evicted op := by
    intro hmem hevicted
    obtain ⟨-, -, -, hgone⟩ := mem_evicted.mp hevicted
    exact hgone (mem_residents.mpr ⟨e, hmem⟩)
  constructor
  · intro hmem
    obtain ⟨hnone, hstep⟩ | ⟨v, d, hstored, -⟩ := step_cases c op
    · rw [hstep, List.mem_filter] at hmem
      exact .inr ⟨hmem.1, by simp [hnone], by simpa using hmem.2,
        hkept (hstep ▸ List.mem_filter.mpr hmem)⟩
    · obtain hnew | ⟨hold, hne⟩ := mem_of_mem_step_of_stored hstored hmem
      · exact .inl (hnew ▸ hstored)
      · exact .inr ⟨hold, stored?_ne hstored hne, forgets_of_stored hstored u e, hkept hmem⟩
  · rintro (hstored | ⟨hmem, hother, hforgets, hevicted⟩)
    · rw [entries_step_of_stored hstored, ← Nat.succ_pred_eq_of_pos hpos, List.take_succ_cons]
      exact List.mem_cons_self
    · -- the document is still remembered, and with no other entry
      have hresident : u ∈ (c.step op).1.residents := by
        by_contra hgone
        exact hevicted (mem_evicted.mpr ⟨e, hmem, hforgets, hgone⟩)
      obtain ⟨d, hd⟩ := mem_residents.mp hresident
      have hold : (u, d) ∈ c.entries := by
        obtain ⟨-, hstep⟩ | ⟨v, d', hstored, -⟩ := step_cases c op
        · exact List.mem_of_mem_filter (hstep ▸ hd)
        · obtain hnew | hold := mem_of_mem_step_of_stored hstored hd
          · exact absurd (hnew ▸ hstored) (hother d)
          · exact hold.1
      rwa [eq_of_mem hnodup hmem hold]

/-- **The invariant.** The list holds the entries that stand, each document once, the one with the
newest store in front. -/
structure Recorded (capacity : Nat) (ops : List CacheOperation) (c : IncludeCache) : Prop where
  capacity_eq : c.capacity = max capacity 1
  size_le : c.size ≤ c.capacity
  nodup : c.residents.Nodup
  stands : ∀ u e, (u, e) ∈ c.entries ↔ Stands capacity ops u e
  newest : c.residents.Pairwise fun v w => Older capacity ops w v

lemma Older.concat {w : Uri} (h : Older capacity ops v w)
    (hv : ∀ d, ((withCapacity capacity).run ops).stored? op ≠ some (v, d))
    (hw : ∀ d, ((withCapacity capacity).run ops).stored? op ≠ some (w, d)) :
    Older capacity (ops ++ [op]) v w := by
  obtain ⟨i, j, d, e, hi, hj, hlt⟩ := h
  exact ⟨i, j, d, e, (lastStore_concat hi.1.lt).mpr ⟨hi, hv⟩,
    (lastStore_concat hj.1.lt).mpr ⟨hj, hw⟩, hlt⟩

/-- Whatever is stored now is newer than all other documents that are remembered. -/
lemma Recorded.older_last (h : Recorded capacity ops ((withCapacity capacity).run ops))
    (hstored : ((withCapacity capacity).run ops).stored? op = some (u, e)) (hvu : v ≠ u)
    (hv : v ∈ ((withCapacity capacity).run ops).residents) : Older capacity (ops ++ [op]) v u := by
  obtain ⟨d, hd⟩ := mem_residents.mp hv
  obtain ⟨i, hlast, -⟩ := (h.stands v d).mp hd
  exact ⟨i, ops.length, d, e, (lastStore_concat hlast.1.lt).mpr ⟨hlast, stored?_ne hstored hvu⟩,
    lastStore_last hstored, hlast.1.lt⟩

/-- The order of the list is the order of the last stores, also after one more operation. -/
lemma Recorded.newest_step (h : Recorded capacity ops ((withCapacity capacity).run ops))
    (op : CacheOperation) :
    (((withCapacity capacity).run ops).step op).1.residents.Pairwise
      fun v w => Older capacity (ops ++ [op]) w v := by
  obtain ⟨hnone, hstep⟩ | ⟨u, e, hstored, hstep⟩ := step_cases ((withCapacity capacity).run ops) op
  · rw [residents, hstep]
    refine (h.newest.sublist (List.filter_sublist.map _)).imp fun hold => hold.concat ?_ ?_ <;>
    · rw [hnone]
      exact fun _ => nofun
  · rw [residents, hstep]
    refine List.Pairwise.sublist ((List.take_sublist _ _).map _) ?_
    have hothers : ∀ v ∈ (((withCapacity capacity).run ops).entries.filter fun x => !(x.1 == u)).map
        Prod.fst, v ∈ ((withCapacity capacity).run ops).residents ∧ v ≠ u := by
      simp only [List.mem_map, List.mem_filter]
      rintro v ⟨x, ⟨hx, hne⟩, rfl⟩
      exact ⟨List.mem_map_of_mem hx, by simpa using hne⟩
    rw [List.map_cons, List.pairwise_cons]
    refine ⟨fun v hv => h.older_last hstored (hothers v hv).2 (hothers v hv).1, ?_⟩
    refine (h.newest.sublist (List.filter_sublist.map _)).imp_of_mem fun {v w} hv hw hold => ?_
    exact hold.concat (stored?_ne hstored (hothers w hw).2) (stored?_ne hstored (hothers v hv).2)

lemma recorded_step (h : Recorded capacity ops ((withCapacity capacity).run ops))
    (op : CacheOperation) :
    Recorded capacity (ops ++ [op]) ((withCapacity capacity).run (ops ++ [op])) := by
  have hpos : 0 < ((withCapacity capacity).run ops).capacity := by
    rw [h.capacity_eq]
    omega
  rw [run_append, run_cons, run_nil]
  refine ⟨?_, size_step_le h.size_le op, nodup_step h.nodup op, fun u e => ?_, h.newest_step op⟩
  · rw [capacity_step, h.capacity_eq]
  · rw [mem_entries_step h.nodup hpos, stands_concat, h.stands]

/-- The list agrees with the history after every run. -/
lemma recorded_run (capacity : Nat) (ops : List CacheOperation) :
    Recorded capacity ops ((withCapacity capacity).run ops) := by
  induction ops using List.reverseRecOn with
  | nil =>
    refine ⟨rfl, Nat.zero_le _, List.nodup_nil, fun u e => ?_, List.Pairwise.nil⟩
    refine iff_of_false List.not_mem_nil ?_
    rintro ⟨i, hlast, -⟩
    exact absurd hlast.1.lt (Nat.not_lt_zero i)
  | append_singleton ops op ih => exact recorded_step ih op

/-- An invalidation counts the documents that it removes. -/
lemma answer_invalidateContaining (hnodup : c.residents.Nodup) (p : Path) :
    (c.step (.invalidateContaining p)).2 = .forgotten
      (c.residents.countP fun u => u ∉ (c.step (.invalidateContaining p)).1.residents) := by
  have hgone : ∀ x ∈ c.entries,
      x.1 ∉ (c.step (.invalidateContaining p)).1.residents ↔ x.2.contains p := by
    rintro ⟨u, e⟩ hx
    rw [mem_residents, step, invalidateContaining]
    simp only [List.mem_filter, Bool.not_eq_true', not_exists, not_and, Bool.not_eq_false]
    exact ⟨fun h => h e hx, fun h d hd => eq_of_mem hnodup hx hd ▸ h⟩
  have hcount : c.residents.countP (fun u => u ∉ (c.step (.invalidateContaining p)).1.residents) =
      c.entries.countP fun x => x.2.contains p := by
    show List.countP _ (c.entries.map Prod.fst) = _
    rw [List.countP_map]
    exact List.countP_congr fun x hx => by simpa using hgone x hx
  have hlength : c.entries.length = c.entries.countP (fun x => x.2.contains p) +
      c.entries.countP fun x => !x.2.contains p := by
    rw [List.length_eq_countP_add_countP fun x => x.2.contains p]
    simp
  rw [hcount, step, invalidateContaining]
  simp only [← List.countP_eq_length_filter, CacheAnswer.forgotten.injEq]
  omega

/-- The last store of the last document of the list is the oldest. -/
lemma Recorded.older_of_last (h : Recorded capacity ops c) {front : List (Uri × IncludeEntry)}
    {x : Uri × IncludeEntry} (hentries : c.entries = front ++ [x]) {w : Uri} (hw : w ∈ c.residents)
    (hne : w ≠ x.1) : Older capacity ops x.1 w := by
  have hnewest := h.newest
  rw [residents_concat hentries] at hw hnewest
  obtain hw | hw := List.mem_append.mp hw
  · exact (List.pairwise_append.mp hnewest).2.2 w hw x.1 (List.mem_singleton_self _)
  · exact absurd (List.mem_singleton.mp hw) hne

/-- Either there was room, or the last of the list had to go. -/
lemma Recorded.evicted_cases (h : Recorded capacity ops c) (op : CacheOperation) :
    (c.evicted op = [] ∧
      ∀ u e, c.stored? op = some (u, e) → u ∈ c.residents ∨ c.size < c.capacity) ∨
    ∃ u e front x, c.stored? op = some (u, e) ∧ u ∉ c.residents ∧ c.size = c.capacity ∧
      c.entries = front ++ [x] ∧ c.evicted op = [x.1] := by
  by_cases hroom : ∀ u e, c.stored? op = some (u, e) → u ∈ c.residents ∨ c.size < c.capacity
  · exact .inl ⟨evicted_eq_nil h.size_le hroom, hroom⟩
  · simp only [not_forall, not_or] at hroom
    obtain ⟨u, e, hstored, hu, hlt⟩ := hroom
    have hfull : c.size = c.capacity := Nat.le_antisymm h.size_le (Nat.le_of_not_lt hlt)
    have hne : c.entries ≠ [] := by
      intro hnil
      have hcapacity := h.capacity_eq
      rw [← hfull, size, hnil, List.length_nil] at hcapacity
      omega
    obtain ⟨front, x, hentries⟩ := (List.eq_nil_or_concat' c.entries).resolve_left hne
    exact .inr ⟨u, e, front, x, hstored, hu, hfull, hentries,
      evicted_of_full h.nodup hstored hu hfull hentries⟩

/-- **Refinement.** After every run at most as many documents are remembered as there is room for.
An entry is found exactly if it stands and has the key. A document is evicted exactly when another
one is stored in a full cache, it is one only, and no other document was last stored before it. An
invalidation answers how many documents it has removed. -/
theorem cache_refines_history (capacity : Nat) (ops : List CacheOperation) :
    let c := (withCapacity capacity).run ops
    (c.residents.Nodup ∧ c.residents.length ≤ max capacity 1) ∧
    (∀ u key e, c.get? u key = some e ↔ e.key = key ∧ Stands capacity ops u e) ∧
    (∀ op, c.evicted op ≠ [] ↔
      ∃ u e, c.stored? op = some (u, e) ∧ u ∉ c.residents ∧ c.residents.length = max capacity 1) ∧
    (∀ op, ∀ v ∈ c.evicted op, c.evicted op = [v] ∧ v ∈ c.residents ∧
      ∀ w ∈ c.residents, w ≠ v → Older capacity ops v w) ∧
    ∀ p, (c.step (.invalidateContaining p)).2 = .forgotten
      (c.residents.countP fun u => u ∉ (c.step (.invalidateContaining p)).1.residents) := by
  intro c
  have h : Recorded capacity ops c := recorded_run capacity ops
  have hlength : c.residents.length = c.size := List.length_map _
  rw [hlength, ← h.capacity_eq]
  refine ⟨⟨h.nodup, h.size_le⟩, fun u key e => ?_, fun op => ?_, fun op v hv => ?_,
    answer_invalidateContaining h.nodup⟩
  · rw [get?_eq_some_iff h.nodup, h.stands]
  · obtain ⟨hnil, hroom⟩ | ⟨u, e, front, x, hstored, hu, hfull, -, hevicted⟩ := h.evicted_cases op
    · refine iff_of_false (fun hne => hne hnil) ?_
      rintro ⟨u, e, hstored, hu, hfull⟩
      exact Nat.ne_of_lt ((hroom u e hstored).resolve_left hu) hfull
    · exact iff_of_true (by simp [hevicted]) ⟨u, e, hstored, hu, hfull⟩
  · obtain ⟨hnil, -⟩ | ⟨-, -, front, x, -, -, -, hentries, hevicted⟩ := h.evicted_cases op
    · rw [hnil] at hv
      cases hv
    · rw [hevicted, List.mem_singleton] at hv
      subst hv
      refine ⟨hevicted, ?_, fun w hw hne => h.older_of_last hentries hw hne⟩
      exact List.mem_map_of_mem (by simp [hentries])

/-- Two documents are stored in a cache for two. The first is then asked for, and once more stored
by a computation that comes too late. -/
def fullCache : List CacheOperation :=
  [.store (rootUri "a.au3") 0 (oneFile "/x.au3"), .invalidateContaining (.ofString "/z.au3"),
    .store (rootUri "b.au3") 1 (oneFile "/y.au3"), .get (rootUri "a.au3") ⟨[]⟩,
    .store (rootUri "a.au3") 0 (oneFile "/y.au3")]

/-- Neither keeps the first document from being the older one, which a third document evicts. -/
theorem cache_refines_history_full :
    let c := (withCapacity 2).run fullCache
    let third := CacheOperation.store (rootUri "c.au3") 1 (oneFile "/x.au3")
    Stands 2 fullCache (rootUri "a.au3") (oneFile "/x.au3") ∧
    c.evicted third = [rootUri "a.au3"] ∧
    Older 2 fullCache (rootUri "a.au3") (rootUri "b.au3") ∧
    (c.step (.invalidateContaining (.ofString "/x.au3"))).2 = .forgotten 1 := by
  intro c third
  obtain ⟨-, hfound, -, holdest, hcount⟩ := cache_refines_history 2 fullCache
  obtain ⟨hevicted, -, holder⟩ := holdest third (rootUri "a.au3") (by decide +kernel)
  refine ⟨((hfound _ ⟨[]⟩ _).mp (by decide +kernel)).2, hevicted, ?_, (hcount _).trans ?_⟩
  · exact holder (rootUri "b.au3") (by decide +kernel) (by decide +kernel)
  · decide +kernel

end IncludeCache

end AutoItServer
