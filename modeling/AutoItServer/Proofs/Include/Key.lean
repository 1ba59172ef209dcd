import AutoItServer.Include.Directive
import AutoItServer.Proofs.Path.Order
import Mathlib.Data.List.Basic
import Mathlib.Tactic.Lemma

/-!
The key of a list of directives.

* `IncludeKey.ofDirectives_eq_iff` (**the key is a multiset**): two lists have the same key exactly
  when they hold the same directives equally often, the case of names and the order left aside.
* `exists_mem_of_ofDirectives_eq`: each directive has a counterpart in every list with the same key.
* `Directive.occurrences`: how often a kind and a name stand in a list;
  `ofDirectives_eq_iff_occurrences` says that the key is determined by these numbers and determines
  them.
* `key_eq_iff_equally_often` (**what the key keeps**): texts have the same key exactly when they
  hold each directive equally often, so that reordering directives keeps the key and one more
  directive changes it.
-/

namespace AutoItServer

namespace Directive

lemma keyLe_total (a b : IncludeKind × Text) : keyLe a b || keyLe b a := by
  obtain ⟨ka, ta⟩ := a
  obtain ⟨kb, tb⟩ := b
  cases ka <;> cases kb <;> simp [keyLe, Text.le_total]

lemma keyLe_trans (a b c : IncludeKind × Text) (hab : keyLe a b) (hbc : keyLe b c) : keyLe a c := by
  obtain ⟨ka, ta⟩ := a
  obtain ⟨kb, tb⟩ := b
  obtain ⟨kc, tc⟩ := c
  cases ka <;> cases kb <;> cases kc <;> simp_all [keyLe] <;> exact Text.le_trans hab hbc

lemma keyLe_antisymm (a b : IncludeKind × Text) (hab : keyLe a b) (hba : keyLe b a) : a = b := by
  obtain ⟨ka, ta⟩ := a
  obtain ⟨kb, tb⟩ := b
  cases ka <;> cases kb <;> simp_all [keyLe] <;> exact Text.le_antisymm hab hba

/-- What the key keeps of a directive. -/
def keyEntry (x : Directive) : IncludeKind × Text :=
  (x.kind, Text.lower x.spec)

/-- What a directive asks for, wherever it stands. -/
def target (x : Directive) : IncludeKind × Text :=
  (x.kind, x.spec)

/-- How often a list holds directives of a kind with this name in lower case. -/
def occurrences (kind : IncludeKind) (name : Text) (xs : List Directive) : Nat :=
  xs.countP fun x => x.kind = kind ∧ Text.lower x.spec = name

lemma occurrences_eq_count (kind : IncludeKind) (name : Text) (xs : List Directive) :
    occurrences kind name xs = (xs.map keyEntry).count (kind, name) := by
  rw [occurrences, List.count, List.countP_map]
  refine List.countP_congr fun x _ => ?_
  simp [keyEntry, Prod.ext_iff]

/-- The key keeps of a directive only what it asks for. -/
lemma map_keyEntry (xs : List Directive) :
    xs.map keyEntry = (xs.map target).map fun e => (e.1, Text.lower e.2) := by
  rw [List.map_map]
  rfl

end Directive

namespace IncludeKey

open Directive (keyEntry target occurrences)

/-- **The key is a multiset**: it forgets the order of the directives and nothing else. -/
lemma ofDirectives_eq_iff {xs ys : List Directive} :
    ofDirectives xs = ofDirectives ys ↔ (xs.map keyEntry).Perm (ys.map keyEntry) := by
  have hkey : ∀ zs, (ofDirectives zs).entries = (zs.map keyEntry).mergeSort Directive.keyLe :=
    fun zs => rfl
  constructor
  · intro h
    have hsorted := congrArg entries h
    rw [hkey, hkey] at hsorted
    exact ((List.mergeSort_perm _ _).symm.trans (.of_eq hsorted)).trans (List.mergeSort_perm _ _)
  · intro h
    have hsorted := List.Perm.eq_of_pairwise (fun a b _ _ => Directive.keyLe_antisymm a b)
      (List.pairwise_mergeSort Directive.keyLe_trans Directive.keyLe_total (xs.map keyEntry))
      (List.pairwise_mergeSort Directive.keyLe_trans Directive.keyLe_total (ys.map keyEntry))
      (((List.mergeSort_perm _ _).trans h).trans (List.mergeSort_perm _ _).symm)
    rw [← hkey, ← hkey] at hsorted
    cases hx : ofDirectives xs
    cases hy : ofDirectives ys
    simpa [hx, hy] using hsorted

/-- Each directive has a counterpart in every list with the same key. -/
lemma exists_mem_of_ofDirectives_eq {xs ys : List Directive} (h : ofDirectives xs = ofDirectives ys)
    {x : Directive} (hx : x ∈ xs) :
    ∃ y ∈ ys, y.kind = x.kind ∧ Text.lower y.spec = Text.lower x.spec := by
  have hmem := (ofDirectives_eq_iff.mp h).subset (List.mem_map_of_mem hx)
  obtain ⟨y, hy, hkey⟩ := List.mem_map.mp hmem
  exact ⟨y, hy, (Prod.mk.inj hkey).1, (Prod.mk.inj hkey).2⟩

variable {xs ys : List Directive}

/-- The key and the numbers of occurrences determine each other. -/
lemma ofDirectives_eq_iff_occurrences : ofDirectives xs = ofDirectives ys ↔
    ∀ kind name, occurrences kind name xs = occurrences kind name ys := by
  rw [ofDirectives_eq_iff, List.perm_iff_count, Prod.forall]
  simp only [Directive.occurrences_eq_count]

/-- The order of the directives and the lines they stand on do not matter, -/
lemma ofDirectives_eq_of_perm (h : (xs.map target).Perm (ys.map target)) :
    ofDirectives xs = ofDirectives ys := by
  rw [ofDirectives_eq_iff, Directive.map_keyEntry, Directive.map_keyEntry]
  exact h.map _

/-- but their number does. -/
lemma length_eq_of_ofDirectives_eq (h : ofDirectives xs = ofDirectives ys) :
    xs.length = ys.length := by
  simpa using (ofDirectives_eq_iff.mp h).length_eq

/-- **What the key keeps**: two texts have the same key exactly when each kind and lower-cased name
stands in both equally often. Directives in another order, on whatever lines, have the same key, and
one directive more has another one. -/
theorem key_eq_iff_equally_often :
    (∀ a b : Text, ofDirectives (Directive.findAll a) = ofDirectives (Directive.findAll b) ↔
      ∀ kind name, occurrences kind name (Directive.findAll a) =
        occurrences kind name (Directive.findAll b)) ∧
    (∀ xs ys : List Directive, (xs.map target).Perm (ys.map target) →
      ofDirectives xs = ofDirectives ys) ∧
    ∀ (xs ys : List Directive) (x : Directive), (ys.map target).Perm (x.target :: xs.map target) →
      ofDirectives ys ≠ ofDirectives xs := by
  refine ⟨fun a b => ofDirectives_eq_iff_occurrences, fun xs ys => ofDirectives_eq_of_perm, ?_⟩
  intro xs ys x hperm hkey
  have hlength := hperm.length_eq
  rw [List.length_map, List.length_cons, List.length_map,
    length_eq_of_ofDirectives_eq hkey] at hlength
  exact Nat.succ_ne_self _ hlength.symm

/-- A file that is included twice. -/
def twiceText : Text :=
  "#include 'A'\n#include 'a' ; again".toList

/-- The same directives from the last one on, with other text between them. -/
def turnedText : Text :=
  "#include 'a'\n$x = 1\n#include 'A'".toList

/-- The file a third time, in quotes of the other kind. -/
def thriceText : Text :=
  "#include 'a'\n#include \"a\"\n#include 'A'".toList

/-- A directive that stands there once more makes another key, and the order makes none. -/
theorem key_eq_iff_equally_often_thrice :
    ((Directive.findAll twiceText).map target).Perm ((Directive.findAll turnedText).map target) ∧
    ofDirectives (Directive.findAll twiceText) = ofDirectives (Directive.findAll turnedText) ∧
    (∀ kind name, occurrences kind name (Directive.findAll twiceText) =
      occurrences kind name (Directive.findAll turnedText)) ∧
    occurrences .quoted ['a'] (Directive.findAll twiceText) = 2 ∧
    ((Directive.findAll thriceText).map target).Perm
      ((.quoted, ['a']) :: (Directive.findAll twiceText).map target) ∧
    ofDirectives (Directive.findAll thriceText) ≠ ofDirectives (Directive.findAll twiceText) := by
  have hturned : ((Directive.findAll twiceText).map target).Perm
      ((Directive.findAll turnedText).map target) := by
    decide
  have hthrice : ((Directive.findAll thriceText).map target).Perm
      ((.quoted, ['a']) :: (Directive.findAll twiceText).map target) := by
    decide
  obtain ⟨hcount, horder, hmore⟩ := key_eq_iff_equally_often
  have hkey := horder _ _ hturned
  exact ⟨hturned, hkey, (hcount _ _).mp hkey, by decide, hthrice,
    hmore _ _ ⟨.quoted, ['a'], 1⟩ hthrice⟩

end IncludeKey

end AutoItServer
