import AutoItServer.Path.Basic
import Mathlib.Data.List.Basic
import Mathlib.Tactic.Lemma

/-!
The orders of texts and of paths are linear.

* `Text.le_total`, `Text.le_trans`, `Text.le_antisymm`: texts, by their characters.
* `Path.Component.le_total`, `Path.Component.le_trans`, `Path.Component.le_antisymm`: components.
* `Path.le_total`, `Path.le_trans`, `Path.componentsLe_antisymm`: paths, by their components.
-/

namespace AutoItServer

/-! ### The order of texts -/

namespace Text

lemma le_cons {c c' : Char} {s t : Text} :
    le (c :: s) (c' :: t) ↔ c.toNat < c'.toNat ∨ (c = c' ∧ le s t) := by
  simp [le]

lemma le_total (s t : Text) : le s t ∨ le t s := by
  induction s generalizing t with
  | nil => simp [le]
  | cons c s ih =>
    cases t with
    | nil => simp [le]
    | cons c' t =>
      rw [le_cons, le_cons]
      rcases Nat.lt_trichotomy c.toNat c'.toNat with h | h | h
      · exact Or.inl (Or.inl h)
      · obtain rfl := Char.toNat_inj.mp h
        exact (ih t).imp (fun h => Or.inr ⟨rfl, h⟩) fun h => Or.inr ⟨rfl, h⟩
      · exact Or.inr (Or.inl h)

lemma le_trans {r s t : Text} (hrs : le r s) (hst : le s t) : le r t := by
  induction r generalizing s t with
  | nil => simp [le]
  | cons a r ih =>
    cases s with
    | nil => simp [le] at hrs
    | cons b s =>
      cases t with
      | nil => simp [le] at hst
      | cons c t =>
        rw [le_cons] at hrs hst ⊢
        rcases hrs with h | ⟨rfl, h⟩
        · rcases hst with h' | ⟨rfl, -⟩
          · exact Or.inl (Nat.lt_trans h h')
          · exact Or.inl h
        · exact hst.imp_right fun ⟨h1, h2⟩ => ⟨h1, ih h h2⟩

lemma le_antisymm {s t : Text} (hst : le s t) (hts : le t s) : s = t := by
  induction s generalizing t with
  | nil =>
    cases t with
    | nil => rfl
    | cons c t => simp [le] at hts
  | cons c s ih =>
    cases t with
    | nil => simp [le] at hst
    | cons c' t =>
      rw [le_cons] at hst hts
      rcases hst with h | ⟨rfl, h⟩
      · rcases hts with h' | ⟨rfl, -⟩ <;> omega
      · rcases hts with h' | ⟨-, h'⟩
        · omega
        · rw [ih h h']

end Text

/-! ### The order of paths -/

namespace Path

namespace Component

lemma le_total (a b : Component) : a.le b ∨ b.le a := by
  cases a with
  | name m =>
    cases b with
    | name n => exact Text.le_total m n
    | _ => exact Or.inr rfl
  | _ => cases b <;> simp [le, rank]

lemma le_trans {a b c : Component} (hab : a.le b) (hbc : b.le c) : a.le c := by
  cases a with
  | name m =>
    cases b with
    | name n =>
      cases c with
      | name o => exact Text.le_trans hab hbc
      | _ => cases hbc
    | _ => cases hab
  | _ => cases b <;> cases c <;> simp_all [le, rank]

lemma le_antisymm {a b : Component} (hab : a.le b) (hba : b.le a) : a = b := by
  cases a with
  | name m =>
    cases b with
    | name n => exact congrArg name (Text.le_antisymm hab hba)
    | _ => cases hab
  | _ => cases b <;> simp_all [le, rank]

end Component

lemma componentsLe_total (as bs : List Component) : componentsLe as bs ∨ componentsLe bs as := by
  induction as generalizing bs with
  | nil => exact Or.inl rfl
  | cons a as ih =>
    cases bs with
    | nil => exact Or.inr rfl
    | cons b bs =>
      rw [componentsLe, componentsLe]
      by_cases h : a = b
      · rw [if_pos h, if_pos h.symm]
        exact ih bs
      · rw [if_neg h, if_neg (Ne.symm h)]
        exact Component.le_total a b

lemma componentsLe_trans {as bs cs : List Component} (hab : componentsLe as bs)
    (hbc : componentsLe bs cs) : componentsLe as cs := by
  induction as generalizing bs cs with
  | nil => rfl
  | cons a as ih =>
    cases bs with
    | nil => cases hab
    | cons b bs =>
      cases cs with
      | nil => cases hbc
      | cons c cs =>
        rw [componentsLe] at hab hbc ⊢
        by_cases h : a = b
        · subst h
          rw [if_pos rfl] at hab
          by_cases h' : a = c
          · rw [if_pos h'] at hbc ⊢
            exact ih hab hbc
          · rwa [if_neg h'] at hbc ⊢
        · rw [if_neg h] at hab
          by_cases h' : b = c
          · subst h'
            rwa [if_neg h]
          · rw [if_neg h'] at hbc
            -- two steps up do not lead back
            have hne : a ≠ c := by
              rintro rfl
              exact h (Component.le_antisymm hab hbc)
            rw [if_neg hne]
            exact Component.le_trans hab hbc

lemma componentsLe_antisymm {as bs : List Component} (hab : componentsLe as bs)
    (hba : componentsLe bs as) : as = bs := by
  induction as generalizing bs with
  | nil =>
    cases bs with
    | nil => rfl
    | cons b bs => cases hba
  | cons a as ih =>
    cases bs with
    | nil => cases hab
    | cons b bs =>
      rw [componentsLe] at hab hba
      by_cases h : a = b
      · subst h
        rw [if_pos rfl] at hab hba
        rw [ih hab hba]
      · rw [if_neg h] at hab
        rw [if_neg (Ne.symm h)] at hba
        exact absurd (Component.le_antisymm hab hba) h

lemma le_total (p q : Path) : (p.le q || q.le p) = true := by
  rw [Bool.or_eq_true]
  exact componentsLe_total p.components q.components

lemma le_trans (p q r : Path) (hpq : p.le q) (hqr : q.le r) : p.le r :=
  componentsLe_trans hpq hqr

end Path

end AutoItServer
