import AutoItServer.Data.OrderedMap
import Mathlib.Data.List.Basic
import Mathlib.Data.List.Induction
import Mathlib.Tactic.ByContra
import Mathlib.Tactic.Lemma

/-!
What is found in an ordered map after a change.

* `find?_insert`, `find?_erase`, `find?_modify`: after one change.
* `nodup_keys_ofList`: a map that is built by insertions has each key once.
* `find?_overlay`: the upper map comes first, when it has each key once.
* `keys_ofList`, `find?_ofList`: the keys of a map that is built by insertions stand in the order of
  their first appearance, and the last value of a key counts.
* `ofList_append_ofList`: inserting the entries of such a map is inserting all that it was built
  from.
* `ofList_map`: changing every value before the insertions or after them is the same.
-/

namespace AutoItServer

namespace OrderedMap

variable {κ α : Type} [BEq κ]

@[simp] lemma find?_empty (k : κ) : find? k (∅ : OrderedMap κ α) = none := rfl

/-- Looking up a key entry by entry. -/
lemma find?_cons (k : κ) (e : κ × α) (rest : List (κ × α)) :
    find? k ⟨e :: rest⟩ = if e.1 == k then some e.2 else find? k ⟨rest⟩ := by
  simp only [find?, List.find?_cons]
  cases e.1 == k <;> rfl

variable [LawfulBEq κ] {k k' : κ} {v : α} {m : OrderedMap κ α}

/-- A key is found with the value it was given last. -/
lemma find?_insert (k k' : κ) (v : α) (m : OrderedMap κ α) :
    (m.insert k v).find? k' = if k == k' then some v else m.find? k' := by
  obtain ⟨entries⟩ := m
  induction entries with
  | nil => simp [insert, insertEntry, find?_cons]
  | cons e rest ih =>
    simp only [insert, insertEntry] at ih ⊢
    by_cases hk : e.1 = k
    · subst hk
      simp only [beq_self_eq_true, if_true, find?_cons]
      split <;> rfl
    · rw [if_neg (by simpa using hk), find?_cons, find?_cons, ih]
      by_cases h : k = k'
      · subst h
        rw [if_neg (by simpa using hk), if_pos (by simp), if_pos (by simp)]
      · simp [h]

/-- A key that was removed is not found. -/
lemma find?_erase (k k' : κ) (m : OrderedMap κ α) :
    (m.erase k).find? k' = if k == k' then none else m.find? k' := by
  obtain ⟨entries⟩ := m
  induction entries with
  | nil => simp [erase, find?]
  | cons e rest ih =>
    simp only [erase] at ih ⊢
    by_cases hk : e.1 = k
    · subst hk
      rw [List.filter_cons_of_neg (by simp), ih, find?_cons]
      split <;> rfl
    · rw [List.filter_cons_of_pos (by simpa using hk), find?_cons, find?_cons, ih]
      by_cases h : k = k'
      · subst h
        rw [if_neg (by simpa using hk)]
        simp
      · simp [h]

/-- Only the key that was modified has another value. -/
lemma find?_modify (k k' : κ) (f : α → α) (m : OrderedMap κ α) :
    (m.modify k f).find? k' = if k == k' then (m.find? k').map f else m.find? k' := by
  obtain ⟨entries⟩ := m
  induction entries with
  | nil => simp [modify, find?]
  | cons e rest ih =>
    simp only [modify, List.map_cons] at ih ⊢
    by_cases hk : e.1 = k
    · subst hk
      rw [if_pos (by simp), find?_cons, find?_cons, ih]
      split <;> rfl
    · rw [if_neg (by simpa using hk), find?_cons, find?_cons, ih]
      by_cases h : k = k'
      · subst h
        simp [hk]
      · simp [h]

/-! ### Keys -/

/-- What has a value is a key. -/
lemma mem_keys_of_find? (h : (m.find? k).isSome) : k ∈ m.keys := by
  rw [find?, Option.isSome_map, List.find?_isSome] at h
  obtain ⟨e, he, hk⟩ := h
  exact List.mem_map.mpr ⟨e, he, beq_iff_eq.mp hk⟩

/-- The keys are what has a value. -/
lemma mem_keys_iff_isSome : k ∈ m.keys ↔ (m.find? k).isSome := by
  refine ⟨fun h => ?_, mem_keys_of_find?⟩
  obtain ⟨e, he, rfl⟩ := List.mem_map.mp h
  rw [find?, Option.isSome_map, List.find?_isSome]
  exact ⟨e, he, beq_self_eq_true e.1⟩

/-- What is no key has no value. -/
lemma find?_eq_none (h : k ∉ m.keys) : m.find? k = none := by
  rwa [mem_keys_iff_isSome, Option.not_isSome_iff_eq_none] at h

/-- Insertion adds the key at most. -/
lemma mem_keys_insert {x : κ} : x ∈ (m.insert k v).keys ↔ x = k ∨ x ∈ m.keys := by
  obtain ⟨entries⟩ := m
  simp only [keys, insert]
  induction entries with
  | nil => simp [insertEntry]
  | cons e rest ih =>
    rw [insertEntry]
    split_ifs with h
    · rw [beq_iff_eq] at h
      simp [h]
    · simp only [List.map_cons, List.mem_cons, ih]
      tauto

/-- Insertion keeps each key once. -/
lemma nodup_keys_insert (h : m.keys.Nodup) : (m.insert k v).keys.Nodup := by
  obtain ⟨entries⟩ := m
  induction entries with
  | nil => simp [keys, insert, insertEntry]
  | cons e rest ih =>
    simp only [keys, List.map_cons, List.nodup_cons] at h
    simp only [insert, insertEntry]
    split_ifs with hk
    · simpa [keys] using h
    · have hmem : e.1 ∉ ((⟨rest⟩ : OrderedMap κ α).insert k v).keys := by
        rw [mem_keys_insert, not_or]
        exact ⟨by simpa using hk, h.1⟩
      exact List.nodup_cons.mpr ⟨hmem, ih h.2⟩

/-- A map that is built by insertions has each key once. -/
lemma nodup_keys_ofList (entries : List (κ × α)) : (ofList entries).keys.Nodup := by
  have hall : ∀ m : OrderedMap κ α, m.keys.Nodup → (m.insertAll entries).keys.Nodup := by
    induction entries with
    | nil => exact fun m h => h
    | cons e rest ih => exact fun m h => ih _ (nodup_keys_insert h)
  exact hall _ (by simp [keys, empty])

/-- **Overlay**: what the upper map says of a key comes before what the lower one says. -/
lemma find?_overlay {upper : OrderedMap κ α} (h : upper.keys.Nodup)
    (lower : OrderedMap κ α) (k : κ) :
    (lower.overlay upper).find? k = (upper.find? k).or (lower.find? k) := by
  obtain ⟨entries⟩ := upper
  simp only [overlay, insertAll]
  induction entries generalizing lower with
  | nil => rfl
  | cons e rest ih =>
    simp only [keys, List.map_cons, List.nodup_cons] at h
    rw [List.foldl_cons, ih _ h.2, find?_insert]
    by_cases he : e.1 == k
    · -- no later entry has the key of the first one
      have hnone : find? k (⟨rest⟩ : OrderedMap κ α) = none :=
        find?_eq_none (beq_iff_eq.mp he ▸ h.1)
      rw [hnone]
      simp [find?, he]
    · simp [find?, he]

/-! ### Maps from lists -/

/-- A new key goes to the end, a known one keeps its place. -/
lemma keys_insert (k : κ) (v : α) (m : OrderedMap κ α) :
    (m.insert k v).keys = if k ∈ m.keys then m.keys else m.keys ++ [k] := by
  have hentries : ∀ entries : List (κ × α), (insertEntry k v entries).map Prod.fst =
      if k ∈ entries.map Prod.fst then entries.map Prod.fst else entries.map Prod.fst ++ [k] := by
    intro entries
    induction entries with
    | nil => rfl
    | cons e rest ih =>
      rw [insertEntry]
      by_cases hk : e.1 = k
      · simp [hk]
      · rw [if_neg (by simpa using hk), List.map_cons, ih]
        simp only [List.map_cons, List.mem_cons, Ne.symm hk, false_or]
        split_ifs <;> rfl
  exact hentries m.entries

omit [LawfulBEq κ] in
lemma ofList_append (entries rest : List (κ × α)) :
    ofList (entries ++ rest) = (ofList entries).insertAll rest :=
  List.foldl_append

omit [LawfulBEq κ] in
lemma ofList_concat (entries : List (κ × α)) (e : κ × α) :
    ofList (entries ++ [e]) = (ofList entries).insert e.1 e.2 :=
  ofList_append entries [e]

/-- First appearances, when one more element comes. -/
lemma eraseDups_concat (l : List κ) (k : κ) :
    (l ++ [k]).eraseDups = if k ∈ l then l.eraseDups else l.eraseDups ++ [k] := by
  rw [List.eraseDups_append]
  split_ifs with h <;> simp [List.removeAll, h, List.eraseDups_cons]

lemma nodup_eraseDups (l : List κ) : l.eraseDups.Nodup := by
  induction l using List.reverseRecOn with
  | nil => exact List.nodup_nil
  | append_singleton l k ih =>
    rw [eraseDups_concat]
    split_ifs with hk
    · exact ih
    · refine List.nodup_append.mpr ⟨ih, List.pairwise_singleton _ k, fun a ha b hb heq => hk ?_⟩
      rw [← List.mem_singleton.mp hb, ← heq]
      exact List.mem_eraseDups.mp ha

/-- First appearances, when a part is already without repetitions. -/
lemma eraseDups_append_eraseDups (l r : List κ) :
    (l ++ r.eraseDups).eraseDups = (l ++ r).eraseDups := by
  induction r using List.reverseRecOn with
  | nil => rfl
  | append_singleton r k ih =>
    rw [eraseDups_concat, ← List.append_assoc, eraseDups_concat]
    by_cases hk : k ∈ r
    · simp [hk, ih]
    · rw [if_neg hk, ← List.append_assoc, eraseDups_concat, ih]
      simp

/-- **The keys** of a map that is built by insertions, in the order of their first appearance. -/
lemma keys_ofList (entries : List (κ × α)) :
    (ofList entries).keys = (entries.map Prod.fst).eraseDups := by
  induction entries using List.reverseRecOn with
  | nil => rfl
  | append_singleton entries e ih =>
    rw [ofList_concat, keys_insert, List.map_append, List.map_singleton, eraseDups_concat]
    simp only [ih, List.mem_eraseDups]

/-- Keys that are all different stay as they were inserted. -/
lemma keys_ofList_of_nodup {entries : List (κ × α)} (h : (entries.map Prod.fst).Nodup) :
    (ofList entries).keys = entries.map Prod.fst := by
  induction entries using List.reverseRecOn with
  | nil => rfl
  | append_singleton entries e ih =>
    rw [List.map_append, List.map_singleton] at h ⊢
    obtain ⟨hentries, -, hfresh⟩ := List.nodup_append.mp h
    have hnew : e.1 ∉ (ofList entries).keys := by
      rw [ih hentries]
      intro hmem
      exact hfresh e.1 hmem e.1 (List.mem_singleton_self _) rfl
    rw [ofList_concat, keys_insert, if_neg hnew, ih hentries]

/-- A map that is built by insertions has the keys that were inserted. -/
lemma mem_keys_ofList {entries : List (κ × α)} {x : κ} :
    x ∈ (ofList entries).keys ↔ x ∈ entries.map Prod.fst := by
  rw [keys_ofList, List.mem_eraseDups]

/-- **The values** of such a map: what was inserted last for a key. -/
lemma find?_ofList (entries : List (κ × α)) (k : κ) :
    (ofList entries).find? k = (entries.filter fun e => e.1 == k).getLast?.map Prod.snd := by
  induction entries using List.reverseRecOn with
  | nil => rfl
  | append_singleton entries e ih =>
    rw [ofList_concat, find?_insert, ih, List.filter_append, List.getLast?_append]
    by_cases he : e.1 == k <;> simp [he]

/-- Where each key stands once, the first value of a key is the last one. -/
lemma find?_eq_getLast? (h : m.keys.Nodup) (k : κ) :
    m.find? k = (m.entries.filter fun e => e.1 == k).getLast?.map Prod.snd := by
  rw [← find?_ofList]
  have hoverlay := find?_overlay h ∅ k
  rw [find?_empty, Option.or_none] at hoverlay
  exact hoverlay.symm

/-- A map with each key once is known by its keys in order and by what is found. -/
lemma eq_of_find? {m' : OrderedMap κ α} (h : m.keys.Nodup) (hkeys : m.keys = m'.keys)
    (hfind : ∀ k, m.find? k = m'.find? k) : m = m' := by
  obtain ⟨entries⟩ := m
  obtain ⟨entries'⟩ := m'
  congr 1
  induction entries generalizing entries' with
  | nil => exact (List.map_eq_nil_iff.mp hkeys.symm).symm
  | cons e rest ih =>
    obtain _ | ⟨e', rest'⟩ := entries'
    · cases hkeys
    obtain ⟨hkey, hkeys⟩ := List.cons.inj hkeys
    obtain ⟨hfresh, hnodup⟩ := List.nodup_cons.mp h
    have hvalue : e.2 = e'.2 := by
      have hfirst := hfind e.1
      rw [find?_cons, find?_cons, if_pos (by simp), if_pos (by simp [hkey])] at hfirst
      exact Option.some.inj hfirst
    refine congrArg₂ List.cons (Prod.ext hkey hvalue) (ih hnodup rest' hkeys fun k => ?_)
    by_cases hk : e.1 = k
    · -- the first key has no other value in either list
      subst hk
      have hsame : keys ⟨rest⟩ = keys ⟨rest'⟩ := hkeys
      rw [find?_eq_none hfresh, find?_eq_none (hsame ▸ hfresh)]
    · have hother := hfind k
      rwa [find?_cons, find?_cons, if_neg (by simpa using hk), if_neg (by simpa [← hkey] using hk)]
        at hother

/-- Entries with different keys are the map that is built from them. -/
lemma ofList_of_nodup {entries : List (κ × α)} (h : (entries.map Prod.fst).Nodup) :
    ofList entries = ⟨entries⟩ := by
  refine eq_of_find? (nodup_keys_ofList entries) (keys_ofList_of_nodup h) fun k => ?_
  rw [find?_ofList, find?_eq_getLast? h]

/-- Inserting the entries of a map is inserting all that it was built from. -/
lemma ofList_append_ofList (xs ys : List (κ × α)) :
    ofList (xs ++ (ofList ys).entries) = ofList (xs ++ ys) := by
  refine eq_of_find? (nodup_keys_ofList _) ?_ fun k => ?_
  · have hkeys : (ofList ys).entries.map Prod.fst = (ys.map Prod.fst).eraseDups := keys_ofList ys
    rw [keys_ofList, keys_ofList, List.map_append, hkeys, eraseDups_append_eraseDups,
      List.map_append]
  · rw [find?_ofList, find?_ofList, List.filter_append, List.getLast?_append, List.filter_append,
      List.getLast?_append, Option.map_or, Option.map_or,
      ← find?_eq_getLast? (nodup_keys_ofList ys), find?_ofList]

/-! ### Changing every value -/

omit [LawfulBEq κ]

variable {β : Type}

omit [BEq κ] in
/-- A map with every value changed. -/
def mapValues (f : α → β) (m : OrderedMap κ α) : OrderedMap κ β :=
  ⟨m.entries.map fun e => (e.1, f e.2)⟩

lemma insert_mapValues (f : α → β) (k : κ) (v : α) (m : OrderedMap κ α) :
    (m.mapValues f).insert k (f v) = (m.insert k v).mapValues f := by
  obtain ⟨entries⟩ := m
  rw [insert, insert, mapValues, mapValues]
  congr 1
  induction entries with
  | nil => rfl
  | cons e rest ih =>
    simp only [List.map_cons, insertEntry]
    split_ifs
    · rfl
    · rw [ih]
      rfl

/-- Changing every value before the insertions or after them is the same. -/
lemma ofList_map (f : α → β) (entries : List (κ × α)) :
    ofList (entries.map fun e => (e.1, f e.2)) = (ofList entries).mapValues f := by
  have hall : ∀ m : OrderedMap κ α, (m.mapValues f).insertAll (entries.map fun e => (e.1, f e.2)) =
      (m.insertAll entries).mapValues f := by
    induction entries with
    | nil => exact fun m => rfl
    | cons e rest ih =>
      intro m
      show insertAll _ ((m.mapValues f).insert e.1 (f e.2)) = _
      rw [insert_mapValues, ih]
      rfl
  exact hall empty

end OrderedMap

end AutoItServer
