import AutoItServer.Text.Case
import Mathlib.Tactic.Lemma
import Mathlib.Tactic.SplitIfs

/-!
Keywords in any letter case.

* `Text.afterFolded?_append_of_some`: what follows a keyword may be longer.
* `Text.afterFolded?_eq_none`: keywords with different first letters do not start one text.
* `FoldsFromAscii`: a letter that no character outside ASCII folds to. A keyword of such letters is
  spelled with ASCII letters only (`Text.exists_word_of_afterFolded?`).
* `Text.afterFolded?_asciiLower`: a keyword is found in any case of its ASCII letters.
* `Text.afterFolded?_eq_some_iff`: in ASCII texts a keyword is found exactly in the cases of its
  letters.
* `Text.lower_of_isAscii`: the two lower cases agree on ASCII texts, so that equality up to case is
  equality of lower cases there (`Text.sameIgnoringCase_iff_lower_eq`).
-/

namespace AutoItServer

namespace CodeRange

/-- A code point is moved by a run that holds it. -/
lemma exists_run_of_move? {code n : Nat} {table : Shift} (h : move? code table = some n) :
    ∃ r ∈ table, r.first ≤ code ∧ code ≤ r.last ∧ n = r.target + (code - r.first) := by
  induction table with
  | nil => cases h
  | cons r table ih =>
    rw [move?] at h
    split_ifs at h with hlo hhi
    · rw [Bool.and_eq_true, decide_eq_true_eq] at hhi
      exact ⟨r, List.mem_cons_self, Nat.le_of_not_lt hlo, hhi.1, (Option.some.inj h).symm⟩
    · obtain ⟨s, hs, hmove⟩ := ih h
      exact ⟨s, List.mem_cons_of_mem r hs, hmove⟩

end CodeRange

/-- The code point of a character other than the null one that is made from a number. -/
lemma toNat_of_eq_ofNat {c : Char} {n : Nat} (h : c = Char.ofNat n) (hpos : 0 < c.toNat) :
    c.toNat = n := by
  unfold Char.ofNat at h
  by_cases hvalid : n.isValidChar
  · rw [h, dif_pos hvalid]
    rfl
  · rw [h, dif_neg hvalid] at hpos
    exact absurd hpos (by decide)

/-- A character before the small letters is the lower case of itself only. -/
lemma eq_of_asciiLower_eq {c d : Char} (h : asciiLower c = d) (hd : d.toNat < 0x61) : c = d := by
  rw [asciiLower] at h
  by_cases hcapital : (decide ('A' ≤ c) && decide (c ≤ 'Z')) = true
  · rw [if_pos hcapital] at h
    rw [Bool.and_eq_true, decide_eq_true_eq, decide_eq_true_eq] at hcapital
    have hlo : 0x41 ≤ c.toNat := UInt32.le_iff_toNat_le.mp hcapital.1
    have hhi : c.toNat ≤ 0x5A := UInt32.le_iff_toNat_le.mp hcapital.2
    have hvalid : (c.toNat + 32).isValidChar := Or.inl (by omega)
    have hcode : d.toNat = c.toNat + 32 := by
      unfold Char.ofNat at h
      rw [← h, dif_pos hvalid]
      rfl
    omega
  · rwa [if_neg hcapital] at h

/-- A small ASCII letter to which only itself and its capital fold. -/
def FoldsFromAscii (k : Char) : Prop :=
  CodeRange.image foldTable k = k ∧ 0x61 ≤ k.toNat ∧
    ∀ r ∈ foldTable, r = ⟨0x41, 0x5A, 1, 0x61⟩ ∨ k.toNat < r.target ∨
      r.target + (r.last - r.first) < k.toNat

instance (k : Char) : Decidable (FoldsFromAscii k) :=
  inferInstanceAs (Decidable (_ ∧ _ ∧ _))

/-- Such a letter is the same up to folding as its capital and itself only. -/
lemma asciiLower_of_sameFold {k c : Char} (hk : FoldsFromAscii k) (h : sameFold k c) :
    asciiLower c = k := by
  obtain ⟨hself, hletter, hruns⟩ := hk
  rw [sameFold, beq_iff_eq, hself, CodeRange.image] at h
  rw [asciiLower]
  cases hmove : CodeRange.move? c.toNat foldTable with
  | none =>
    rw [hmove] at h
    subst h
    refine if_neg fun hcapital => ?_
    rw [Bool.and_eq_true, decide_eq_true_eq, decide_eq_true_eq] at hcapital
    have : k.toNat ≤ 0x5A := UInt32.le_iff_toNat_le.mp hcapital.2
    omega
  | some n =>
    replace h : k = Char.ofNat n := by rwa [hmove] at h
    obtain ⟨r, hr, hfirst, hlast, hn⟩ := CodeRange.exists_run_of_move? hmove
    have hcode : k.toNat = n := toNat_of_eq_ofNat h (by omega)
    rcases hruns r hr with rfl | hbelow | habove
    · -- the letters of the run are the capitals
      have hcapital : (decide ('A' ≤ c) && decide (c ≤ 'Z')) = true := by
        rw [Bool.and_eq_true, decide_eq_true_eq, decide_eq_true_eq]
        exact ⟨UInt32.le_iff_toNat_le.mpr hfirst, UInt32.le_iff_toNat_le.mpr hlast⟩
      rw [if_pos hcapital, h]
      dsimp only at hn hfirst
      congr 1
      omega
    · omega
    · omega

/-- A character to which no other one folds is the same up to folding as itself only. -/
lemma eq_of_sameFold {k c : Char} (hself : CodeRange.image foldTable k = k) (hpos : 0 < k.toNat)
    (hruns : ∀ r ∈ foldTable, k.toNat < r.target) (h : sameFold k c) : c = k := by
  rw [sameFold, beq_iff_eq, hself, CodeRange.image] at h
  cases hmove : CodeRange.move? c.toNat foldTable with
  | none =>
    rw [hmove] at h
    exact h.symm
  | some n =>
    replace h : k = Char.ofNat n := by rwa [hmove] at h
    obtain ⟨r, hr, -, -, hn⟩ := CodeRange.exists_run_of_move? hmove
    have hcode := toNat_of_eq_ofNat h hpos
    have := hruns r hr
    omega

/-- What holds of every character with itself, and of the capitals with their small letters, holds
of every character with its lower case. -/
lemma forall_asciiLower {p : Char → Char → Bool} (hself : ∀ c, p c c)
    (hletters : (List.range' 0x41 26).all fun n => p (Char.ofNat n) (Char.ofNat (n + 32)))
    (c : Char) :
    p c (asciiLower c) := by
  rw [asciiLower]
  by_cases hcapital : (decide ('A' ≤ c) && decide (c ≤ 'Z')) = true
  · rw [if_pos hcapital]
    rw [Bool.and_eq_true, decide_eq_true_eq, decide_eq_true_eq] at hcapital
    have hlo : 0x41 ≤ c.toNat := UInt32.le_iff_toNat_le.mp hcapital.1
    have hhi : c.toNat ≤ 0x5A := UInt32.le_iff_toNat_le.mp hcapital.2
    have hc := List.all_eq_true.mp hletters c.toNat (List.mem_range'_1.mpr ⟨hlo, by omega⟩)
    rwa [Char.ofNat_toNat] at hc
  · rw [if_neg hcapital]
    exact hself c

/-- A character is the same up to folding as its ASCII lower case. -/
lemma sameFold_asciiLower (c : Char) : sameFold (asciiLower c) c :=
  forall_asciiLower (p := fun c d => sameFold d c) (fun _ => beq_self_eq_true _)
    (by decide +kernel) c

/-- The ASCII characters are tried one by one. -/
lemma forall_ascii {p : Char → Bool}
    (hall : (List.range 0x80).all fun n => p (Char.ofNat n)) {c : Char}
    (h : c.toNat < 0x80) : p c := by
  have hc := List.all_eq_true.mp hall c.toNat (List.mem_range.mpr h)
  rwa [Char.ofNat_toNat] at hc

/-- The lower case of an ASCII character is another one for capitals only, -/
lemma image_lowerTable_of_ascii {c : Char} (h : c.toNat < 0x80) :
    CodeRange.image lowerTable c = asciiLower c :=
  beq_iff_eq.mp (forall_ascii (p := fun c => CodeRange.image lowerTable c == asciiLower c)
    (by decide +kernel) h)

/-- and that is what it folds to. -/
lemma image_foldTable_of_ascii {c : Char} (h : c.toNat < 0x80) :
    CodeRange.image foldTable c = asciiLower c :=
  beq_iff_eq.mp (forall_ascii (p := fun c => CodeRange.image foldTable c == asciiLower c)
    (by decide +kernel) h)

namespace Text

variable {keyword s rest : Text}

/-! ### ASCII -/

/-- A text of ASCII characters. -/
def IsAscii (t : Text) : Prop :=
  ∀ c ∈ t, c.toNat < 0x80

instance (t : Text) : Decidable (IsAscii t) :=
  decidable_of_iff (t.all fun c => c.toNat < 0x80) (by simp [IsAscii])

lemma lowerFrom_of_isAscii {t : Text} (h : IsAscii t) (before : Text) :
    lowerFrom before t = asciiLower t := by
  induction t generalizing before with
  | nil => rfl
  | cons c cs ih =>
    obtain ⟨hc, hcs⟩ := List.forall_mem_cons.mp h
    have hne {d : Char} (hd : 0x80 ≤ d.toNat) : c ≠ d := by
      rintro rfl
      omega
    simp only [lowerFrom, if_neg (hne (d := 'Σ') (by decide)), if_neg (hne (d := 'İ') (by decide)),
      image_lowerTable_of_ascii hc, ih hcs, asciiLower, List.map_cons, List.singleton_append]

/-- **The lower case of an ASCII text** is that of its letters. -/
lemma lower_of_isAscii {t : Text} (h : IsAscii t) : lower t = asciiLower t :=
  lowerFrom_of_isAscii h []

lemma sameIgnoringCase_iff_lower_eq {t : Text} (hs : IsAscii s) (ht : IsAscii t) :
    sameIgnoringCase s t ↔ lower s = lower t := by
  rw [sameIgnoringCase, beq_iff_eq, lower_of_isAscii hs, lower_of_isAscii ht]

/-! ### Keywords -/

/-- **A keyword in any case of its ASCII letters** is found. -/
lemma afterFolded?_asciiLower (word rest : Text) :
    afterFolded? (asciiLower word) (word ++ rest) = some rest := by
  induction word with
  | nil => rfl
  | cons c word ih =>
    rw [asciiLower, List.map_cons, List.cons_append, afterFolded?, if_pos (sameFold_asciiLower c)]
    exact ih

lemma sameIgnoringCase_cons (c k : Char) (s keyword : Text) :
    sameIgnoringCase (c :: s) (k :: keyword) ↔
    AutoItServer.asciiLower c = AutoItServer.asciiLower k ∧ sameIgnoringCase s keyword := by
  simp [sameIgnoringCase, asciiLower]

lemma length_eq_of_sameIgnoringCase {t : Text} (h : sameIgnoringCase s t) :
    s.length = t.length := by
  rw [sameIgnoringCase, beq_iff_eq] at h
  simpa [asciiLower] using congrArg List.length h

/-- **In ASCII texts** a keyword is found exactly in the cases of its letters. -/
lemma afterFolded?_eq_some_iff (hkeyword : IsAscii keyword) (hs : IsAscii s) :
    afterFolded? keyword s = some rest ↔ ∃ word, s = word ++ rest ∧
      sameIgnoringCase word keyword := by
  induction keyword generalizing s with
  | nil =>
    rw [afterFolded?, Option.some.injEq]
    refine ⟨fun h => ⟨[], h, rfl⟩, ?_⟩
    rintro ⟨word, rfl, hword⟩
    rw [List.length_eq_zero_iff.mp (length_eq_of_sameIgnoringCase hword), List.nil_append]
  | cons k keyword ih =>
    obtain ⟨hk, hkeyword⟩ := List.forall_mem_cons.mp hkeyword
    cases s with
    | nil =>
      refine iff_of_false nofun ?_
      rintro ⟨word, hnil, hword⟩
      rw [(List.append_eq_nil_iff.mp hnil.symm).1] at hword
      cases length_eq_of_sameIgnoringCase hword
    | cons c s =>
      obtain ⟨hc, hs⟩ := List.forall_mem_cons.mp hs
      have hsame : sameFold k c ↔ AutoItServer.asciiLower c = AutoItServer.asciiLower k := by
        rw [sameFold, beq_iff_eq, image_foldTable_of_ascii hk, image_foldTable_of_ascii hc, eq_comm]
      rw [afterFolded?]
      constructor
      · intro h
        split_ifs at h with hfold
        obtain ⟨word, rfl, hword⟩ := (ih hkeyword hs).mp h
        exact ⟨c :: word, rfl, (sameIgnoringCase_cons c k word keyword).mpr ⟨hsame.mp hfold, hword⟩⟩
      · rintro ⟨word, hcs, hword⟩
        cases word with
        | nil => cases length_eq_of_sameIgnoringCase hword
        | cons d word =>
          obtain ⟨rfl, rfl⟩ := List.cons.inj hcs
          obtain ⟨hfold, hword⟩ := (sameIgnoringCase_cons c k word keyword).mp hword
          rw [if_pos (hsame.mpr hfold)]
          exact (ih hkeyword hs).mpr ⟨word, rfl, hword⟩

/-- What follows a keyword may be longer. -/
lemma afterFolded?_append_of_some (h : afterFolded? keyword s = some rest) (z : Text) :
    afterFolded? keyword (s ++ z) = some (rest ++ z) := by
  induction keyword generalizing s with
  | nil => rw [← Option.some.inj h, afterFolded?]
  | cons k keyword ih =>
    cases s with
    | nil => cases h
    | cons c s =>
      rw [afterFolded?] at h
      split_ifs at h with hsame
      rw [List.cons_append, afterFolded?, if_pos hsame]
      exact ih h

/-- What follows a keyword stands at the end of the text. -/
lemma afterFolded?_suffix (h : afterFolded? keyword s = some rest) : rest <:+ s := by
  induction keyword generalizing s with
  | nil => exact Option.some.inj h ▸ List.suffix_refl s
  | cons k keyword ih =>
    cases s with
    | nil => cases h
    | cons c s =>
      rw [afterFolded?] at h
      split_ifs at h
      exact (ih h).trans (List.suffix_cons c s)

lemma afterKeyword?_suffix (h : afterKeyword? keyword s = some rest) : rest <:+ s := by
  induction keyword generalizing s with
  | nil => exact Option.some.inj h ▸ List.suffix_refl s
  | cons k keyword ih =>
    cases s with
    | nil => cases h
    | cons c s =>
      rw [afterKeyword?] at h
      split_ifs at h
      exact (ih h).trans (List.suffix_cons c s)

/-- A keyword is known by its first letter. -/
lemma exists_cons_of_afterFolded? {k : Char} (h : afterFolded? (k :: keyword) s = some rest) :
    ∃ c cs, s = c :: cs ∧ sameFold k c := by
  cases s with
  | nil => cases h
  | cons c cs =>
    rw [afterFolded?] at h
    split_ifs at h with hsame
    exact ⟨c, cs, rfl, hsame⟩

/-- A keyword in any case of its ASCII letters is known letter by letter. -/
lemma exists_cons_of_afterKeyword? {k : Char} (h : (afterKeyword? (k :: keyword) s).isSome) :
    ∃ c cs, s = c :: cs ∧ AutoItServer.asciiLower c = AutoItServer.asciiLower k ∧
      (afterKeyword? keyword cs).isSome := by
  cases s with
  | nil => cases h
  | cons c cs =>
    rw [afterKeyword?] at h
    split_ifs at h with hsame
    · exact ⟨c, cs, rfl, (beq_iff_eq.mp hsame).symm, h⟩
    · cases h

/-- Different first letters make different keywords. -/
lemma afterFolded?_eq_none {j k : Char} {keyword' : Text} (hjk : sameFold j k = false)
    (h : (afterFolded? (k :: keyword) s).isSome) : afterFolded? (j :: keyword') s = none := by
  obtain ⟨rest, hrest⟩ := Option.isSome_iff_exists.mp h
  obtain ⟨c, cs, rfl, hk⟩ := exists_cons_of_afterFolded? hrest
  rw [afterFolded?, if_neg]
  intro hj
  rw [sameFold, beq_iff_eq] at hj hk
  rw [sameFold, beq_eq_false_iff_ne] at hjk
  exact hjk (hj.trans hk.symm)

/-- The letters of a keyword are tried one by one. -/
lemma foldsFromAscii_of_all (h : keyword.all fun k => decide (FoldsFromAscii k)) :
    ∀ k ∈ keyword, FoldsFromAscii k :=
  fun k hk => of_decide_eq_true (List.all_eq_true.mp h k hk)

/-- **A keyword of such letters** is spelled with ASCII letters. -/
lemma exists_word_of_afterFolded? (hkeyword : ∀ k ∈ keyword, FoldsFromAscii k)
    (h : afterFolded? keyword s = some rest) :
    ∃ word, s = word ++ rest ∧ asciiLower word = keyword := by
  induction keyword generalizing s with
  | nil => exact ⟨[], Option.some.inj h, rfl⟩
  | cons k keyword ih =>
    obtain ⟨hk, hkeyword⟩ := List.forall_mem_cons.mp hkeyword
    cases s with
    | nil => cases h
    | cons c s =>
      rw [afterFolded?] at h
      split_ifs at h with hsame
      obtain ⟨word, rfl, hword⟩ := ih hkeyword h
      refine ⟨c :: word, rfl, ?_⟩
      rw [asciiLower, List.map_cons, asciiLower_of_sameFold hk hsame, ← asciiLower, hword]

end Text

end AutoItServer
