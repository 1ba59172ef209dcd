import AutoItServer.Text.Class
import Mathlib.Data.List.DropRight
import Mathlib.Data.List.TakeWhile
import Mathlib.Tactic.Lemma

/-!
Classes of characters that have no character in common.

The classes are tables of intervals, so that it is enough to compare the intervals of two tables.

* `CodeRange.Apart`: no interval of one table meets one of the other.
* `CodeRange.Apart.not_mem`: tables that are apart have no code point in common.
* `not_isBlank_of_isIdentifier`, `not_isBlank_of_isWord`: identifiers and words hold no blanks.
* `Text.trimStart_append`, `Text.trimEnd_append`: blanks at an end of a text are trimmed away, and
  nothing else is.
* `Text.Solid`: a text with no blank at either end, which trimming leaves as it is.
* `Text.span_unique`: a text is cut in one way where a class of characters ends.
-/

namespace AutoItServer

namespace CodeRange

/-- No interval of one table meets an interval of the other. -/
def Apart (a b : Table) : Prop :=
  ∀ r ∈ a, ∀ s ∈ b, r.2 < s.1 ∨ s.2 < r.1

instance (a b : Table) : Decidable (Apart a b) :=
  inferInstanceAs (Decidable (∀ r ∈ a, ∀ s ∈ b, r.2 < s.1 ∨ s.2 < r.1))

/-- A code point of a table lies in one of its intervals. -/
lemma exists_interval_of_mem {code : Nat} {table : Table} (h : mem code table) :
    ∃ r ∈ table, r.1 ≤ code ∧ code ≤ r.2 := by
  induction table with
  | nil => cases h
  | cons r table ih =>
    rw [mem] at h
    split at h
    · cases h
    · rename_i hlo
      rw [Bool.or_eq_true, decide_eq_true_eq] at h
      rcases h with h | h
      · exact ⟨r, List.mem_cons_self, by omega, h⟩
      · obtain ⟨s, hs, hcode⟩ := ih h
        exact ⟨s, List.mem_cons_of_mem r hs, hcode⟩

/-- Tables that are apart have no code point in common. -/
lemma Apart.not_mem {a b : Table} (h : Apart a b) {code : Nat} (ha : mem code a) :
    ¬ mem code b := by
  intro hb
  obtain ⟨r, hr, hcode⟩ := exists_interval_of_mem ha
  obtain ⟨s, hs, hcode'⟩ := exists_interval_of_mem hb
  have := h r hr s hs
  omega

end CodeRange

/-- No letter or number is blank. -/
lemma not_isBlank_of_isAlphanumeric {c : Char} (h : isAlphanumeric c) : ¬ isBlank c := by
  rw [isAlphanumeric, Bool.or_eq_true] at h
  rcases h with h | h
  · exact CodeRange.Apart.not_mem (by decide +kernel) h
  · exact CodeRange.Apart.not_mem (by decide +kernel) h

/-- No character of an identifier is blank. -/
lemma not_isBlank_of_isIdentifier {c : Char} (h : isIdentifier c) : ¬ isBlank c := by
  rw [isIdentifier, Bool.or_eq_true, beq_iff_eq] at h
  rcases h with h | rfl
  · exact not_isBlank_of_isAlphanumeric h
  · decide

/-- No word character is blank. -/
lemma not_isBlank_of_isWord {c : Char} (h : isWord c) : ¬ isBlank c := by
  simp only [isWord, Bool.or_eq_true] at h
  rcases h with (((h | h) | h) | h) | h
  all_goals exact CodeRange.Apart.not_mem (by decide +kernel) h

/-- The ASCII digits are decimal digits. -/
lemma isDecimal_of_isDigit {c : Char} (h : c.isDigit) : isDecimal c := by
  rw [Char.isDigit, Bool.and_eq_true, decide_eq_true_iff, decide_eq_true_iff] at h
  have hlo : 48 ≤ c.toNat := UInt32.le_iff_toNat_le.mp h.1
  have hhi : c.toNat ≤ 57 := UInt32.le_iff_toNat_le.mp h.2
  have hall : ((List.range' 48 10).all fun n => CodeRange.mem n decimalTable) = true := by decide
  exact List.all_eq_true.mp hall c.toNat (List.mem_range'_1.mpr ⟨hlo, by omega⟩)

lemma isBlank_of_isIndent {c : Char} (h : isIndent c) : isBlank c := by
  rw [isIndent, Bool.or_eq_true, beq_iff_eq, beq_iff_eq] at h
  rcases h with rfl | rfl <;> decide

namespace Text

variable {gap s t : Text} {c : Char}

/-! ### Where a class ends -/

section Span

variable {p : Char → Bool} {s' t' : Text} (hs : ∀ c ∈ s, p c) (ht : ∀ c, t.head? = some c → ¬ p c)

include hs ht

lemma takeWhile_span : (s ++ t).takeWhile p = s := by
  rw [List.takeWhile_append_of_pos hs]
  cases t with
  | nil => rw [List.takeWhile_nil, List.append_nil]
  | cons c t => rw [List.takeWhile_cons_of_neg (ht c rfl), List.append_nil]

lemma dropWhile_span : (s ++ t).dropWhile p = t := by
  rw [List.dropWhile_append_of_pos hs]
  cases t with
  | nil => rfl
  | cons c t => rw [List.dropWhile_cons_of_neg (ht c rfl)]

/-- **A text is cut in one way** into characters of a class and a rest that starts with another
one. -/
lemma span_unique (hs' : ∀ c ∈ s', p c) (ht' : ∀ c, t'.head? = some c → ¬ p c)
    (h : s ++ t = s' ++ t') :
    s = s' ∧ t = t' := by
  have htake := congrArg (List.takeWhile p) h
  have hdrop := congrArg (List.dropWhile p) h
  rw [takeWhile_span hs ht, takeWhile_span hs' ht'] at htake
  rw [dropWhile_span hs ht, dropWhile_span hs' ht'] at hdrop
  exact ⟨htake, hdrop⟩

end Span

lemma endsWord_iff : endsWord t ↔ ∀ c, t.head? = some c → ¬ isWord c := by
  cases t <;> simp [endsWord]

/-! ### Trimming -/

lemma trimStart_append (h : ∀ c ∈ gap, isBlank c) (t : Text) : trimStart (gap ++ t) = trimStart t :=
  List.dropWhile_append_of_pos h

lemma trimStart_cons (h : ¬ isBlank c) (t : Text) : trimStart (c :: t) = c :: t :=
  List.dropWhile_cons_of_neg h

lemma trimEnd_append (h : ∀ c ∈ gap, isBlank c) (t : Text) : trimEnd (t ++ gap) = trimEnd t := by
  rw [trimEnd, List.reverse_append, List.dropWhile_append_of_pos (by simpa using h), trimEnd]

lemma trim_append (h : ∀ c ∈ gap, isBlank c) (t : Text) : trim (gap ++ t) = trim t :=
  congrArg trimEnd (trimStart_append h t)

lemma trimEnd_concat (h : ¬ isBlank c) (t : Text) : trimEnd (t ++ [c]) = t ++ [c] := by
  rw [trimEnd, List.reverse_append, List.reverse_singleton, List.singleton_append,
    List.dropWhile_cons_of_neg h, List.reverse_cons, List.reverse_reverse]

/-- What is trimmed away at the end is blank. -/
lemma exists_trimEnd (t : Text) : ∃ gap, t = trimEnd t ++ gap ∧ ∀ c ∈ gap, isBlank c := by
  refine ⟨(t.reverse.takeWhile isBlank).reverse, ?_, fun c hc => ?_⟩
  · rw [trimEnd, ← List.reverse_append, List.takeWhile_append_dropWhile, List.reverse_reverse]
  · exact List.mem_takeWhile_imp (List.mem_reverse.mp hc)

/-- A text that is not empty and has no blank at either end. -/
def Solid (t : Text) : Prop :=
  (∃ c ∈ t.head?, ¬ isBlank c) ∧ ∃ c ∈ t.getLast?, ¬ isBlank c

-- only the characters at the ends are looked at, not every character there is
instance (t : Text) : Decidable (Solid t) :=
  @instDecidableAnd _ _ (Option.decidableExistsMem _) (Option.decidableExistsMem _)

lemma Solid.ne_nil (h : Solid t) : t ≠ [] := by
  rintro rfl
  obtain ⟨⟨c, hc, -⟩, -⟩ := h
  cases hc

lemma solid_of_forall_not_isBlank (hne : t ≠ []) (h : ∀ c ∈ t, ¬ isBlank c) : Solid t :=
  ⟨⟨t.head hne, List.head?_eq_some_head hne, h _ (List.head_mem hne)⟩,
    ⟨t.getLast hne, List.getLast?_eq_some_getLast hne, h _ (List.getLast_mem hne)⟩⟩

/-- Between two such texts there may be anything. -/
lemma Solid.append (hs : Solid s) (ht : Solid t) (between : Text) :
    Solid (s ++ (between ++ t)) := by
  obtain ⟨⟨c, hc, hfirst⟩, -⟩ := hs
  obtain ⟨-, ⟨d, hd, hlast⟩⟩ := ht
  rw [Option.mem_def] at hc hd
  refine ⟨⟨c, ?_, hfirst⟩, ⟨d, ?_, hlast⟩⟩
  · rw [Option.mem_def, List.head?_append, hc, Option.some_or]
  · rw [Option.mem_def, List.getLast?_append, List.getLast?_append, hd, Option.some_or,
      Option.some_or]

lemma join_cons_cons (sep t u : Text) (parts : List Text) :
    join sep (t :: u :: parts) = t ++ (sep ++ join sep (u :: parts)) :=
  List.append_assoc t sep _

lemma solid_join (sep : Text) {parts : List Text} (ht : Solid t) (hparts : ∀ u ∈ parts, Solid u) :
    Solid (join sep (t :: parts)) := by
  induction parts generalizing t with
  | nil => exact ht
  | cons u parts ih =>
    obtain ⟨hu, hparts⟩ := List.forall_mem_cons.mp hparts
    rw [join_cons_cons]
    exact ht.append (ih hu hparts) sep

lemma exists_mem_of_mem_join {sep : Text} {parts : List Text} (h : c ∈ join sep parts) :
    c ∈ sep ∨ ∃ t ∈ parts, c ∈ t := by
  induction parts with
  | nil => cases h
  | cons t parts ih =>
    cases parts with
    | nil => exact Or.inr ⟨t, List.mem_cons_self, h⟩
    | cons u parts =>
      rcases List.mem_append.mp h with h | h
      · rcases List.mem_append.mp h with h | h
        · exact Or.inr ⟨t, List.mem_cons_self, h⟩
        · exact Or.inl h
      · rcases ih h with hsep | ⟨v, hv, hc⟩
        · exact Or.inl hsep
        · exact Or.inr ⟨v, List.mem_cons_of_mem t hv, hc⟩

lemma Solid.trimStart_append (h : Solid t) (rest : Text) : trimStart (t ++ rest) = t ++ rest := by
  obtain ⟨⟨c, hc, hfirst⟩, -⟩ := h
  obtain ⟨cs, rfl⟩ := List.head?_eq_some_iff.mp hc
  exact trimStart_cons hfirst _

lemma Solid.trimEnd_append (h : Solid t) (before : Text) : trimEnd (before ++ t) = before ++ t := by
  obtain ⟨-, ⟨c, hc, hlast⟩⟩ := h
  obtain ⟨cs, rfl⟩ := List.getLast?_eq_some_iff.mp hc
  rw [← List.append_assoc]
  exact trimEnd_concat hlast _

lemma Solid.trim_eq (h : Solid t) : trim t = t := by
  have hstart : trimStart t = t := by simpa using h.trimStart_append []
  rw [trim, hstart]
  exact h.trimEnd_append []

/-- A text from which no blank is dropped does not start with one. -/
lemma exists_head?_of_dropWhile_eq (hne : t ≠ []) (h : t.dropWhile isBlank = t) :
    ∃ c ∈ t.head?, ¬ isBlank c := by
  cases t with
  | nil => exact absurd rfl hne
  | cons c t => exact ⟨c, rfl, List.dropWhile_eq_self_iff.mp h (Nat.succ_pos _)⟩

/-- What trimming leaves has no blank at either end. -/
lemma solid_trim (h : trim t ≠ []) : Solid (trim t) := by
  have htwice (u : Text) : (u.dropWhile isBlank).dropWhile isBlank = u.dropWhile isBlank :=
    List.dropWhile_idempotent isBlank u
  obtain ⟨c, cs, hcons⟩ := List.exists_cons_of_ne_nil h
  obtain ⟨gap, hgap, -⟩ := exists_trimEnd (trimStart t)
  rw [← trim, hcons] at hgap
  constructor
  · have hne : trimStart t ≠ [] := hgap ▸ List.cons_ne_nil c _
    obtain ⟨d, hd, hfirst⟩ := exists_head?_of_dropWhile_eq hne (htwice t)
    rw [hgap] at hd
    exact ⟨d, hcons ▸ hd, hfirst⟩
  · rw [← List.head?_reverse, trim, trimEnd, List.reverse_reverse]
    refine exists_head?_of_dropWhile_eq (fun hnil => h ?_) (htwice _)
    rw [trim, trimEnd, hnil]
    rfl

/-- What trimming leaves as it is has no blank at either end. -/
lemma solid_of_trim_eq (hne : t ≠ []) (h : trim t = t) : Solid t :=
  h ▸ solid_trim (h.symm ▸ hne)

end Text

end AutoItServer
