import AutoItServer.Proofs.Document.Splice
import AutoItServer.Proofs.Text.Position

/-!
Editing at the positions that are reported.

The positions of symbols and definitions count the line feeds before a place. A document that is
changed at such a position counts every line end. The two counts meet as long as only `LF` and
`CRLF` have passed; one more separator may be passed at the very end, since a column goes over it.

* `breakLines_of_ends`, `index_succ_of_ends`, `index_succ_of_continues`: lines and positions,
  character by character.
* `index_lt`: with more line feeds before a place than the position has lines, the position is
  before the place.
* `Document.PlainInside`: no other line end than `LF` and `CRLF` stands before the last character.
* `index_reported_iff` (**one place**): the position of a place is found at the place.
* `edit_at_reported_iff` (**edits at reported positions**): every text goes to where it belongs.
* `reported_edit_astray`: behind a form feed it does not.
-/

namespace AutoItServer

namespace Document

open Text (splitAtByte? byteLength units byteRange WholeLines)

variable {t v x y : Text} {c : Char} {line : Text} {lines : List Text} {n column : Nat}

/-! ### Lines of a document -/

lemma not_continues_lf (t : Text) : ¬ Continues '\n' t :=
  fun h => absurd (h (by decide)).1 (by decide)

lemma Continues.ne_lf (h : Continues c t) : c ≠ '\n' := by
  rintro rfl
  exact not_continues_lf t h

/-- A line that ends. -/
lemma breakLines_of_ends (h : ¬ Continues c t) : breakLines (c :: t) = [c] :: breakLines t := by
  obtain ⟨hbreak, hnot⟩ := Classical.not_imp.mp h
  rw [breakLines, if_pos hbreak]
  rintro cs rfl rfl
  exact hnot ⟨rfl, rfl⟩

/-- A document has a first line. -/
lemma exists_breakLines (t : Text) : ∃ line lines, breakLines t = line :: lines := by
  induction t with
  | nil => exact ⟨[], [], rfl⟩
  | cons c t ih =>
    obtain ⟨line, lines, ht⟩ := ih
    by_cases h : Continues c t
    · exact ⟨c :: line, lines, breakLines_of_continues h ht⟩
    · exact ⟨[c], breakLines t, breakLines_of_ends h⟩

/-- No character is lost. -/
lemma flatten_breakLines (t : Text) : (breakLines t).flatten = t := by
  induction t with
  | nil => rfl
  | cons c t ih =>
    by_cases h : Continues c t
    · obtain ⟨line, lines, ht⟩ := exists_breakLines t
      rw [ht, List.flatten_cons] at ih
      rw [breakLines_of_continues h ht, List.flatten_cons, List.cons_append, ih]
    · rw [breakLines_of_ends h, List.flatten_cons, ih, List.singleton_append]

/-- Every line feed ends a line. -/
lemma count_lt_length_breakLines (t : Text) : t.count '\n' < (breakLines t).length := by
  induction t with
  | nil => exact Nat.one_pos
  | cons c t ih =>
    by_cases h : Continues c t
    · obtain ⟨line, lines, ht⟩ := exists_breakLines t
      rw [breakLines_of_continues h ht, List.count_cons_of_ne h.ne_lf, List.length_cons]
      rwa [ht, List.length_cons] at ih
    · have hcount : (c :: t).count '\n' ≤ t.count '\n' + 1 := by
        rw [List.count_cons]
        split_ifs <;> omega
      rw [breakLines_of_ends h, List.length_cons]
      omega

/-! ### Columns and positions -/

lemma columnIndex_zero (line : Text) : columnIndex 0 line = 0 := by
  cases line <;> rfl

/-- A column goes on over a character that is no `LF` and no `CR`. -/
lemma columnIndex_cons (hlf : c ≠ '\n') (hcr : c ≠ '\r') (column : Nat) (line : Text) :
    columnIndex (charUnits c + column) (c :: line) = 1 + columnIndex column line := by
  obtain ⟨k, hk⟩ := Nat.exists_eq_succ_of_ne_zero (Nat.ne_of_gt (Text.charUnits_pos c))
  rw [hk, show k.succ + column = (k + column) + 1 by omega, columnIndex,
    if_neg (by simp [hlf, hcr]), hk]
  congr 2
  omega

/-- A column is at most one character further on. -/
lemma columnIndex_cons_le (column : Nat) (c : Char) (line : Text) :
    columnIndex column (c :: line) ≤ 1 + columnIndex (column - charUnits c) line := by
  cases column with
  | zero => exact Nat.zero_le _
  | succ column =>
    rw [columnIndex]
    split_ifs
    · exact Nat.zero_le _
    · exact Nat.le_refl _

lemma columnIndex_le (column : Nat) (line : Text) : columnIndex column line ≤ line.length := by
  induction line generalizing column with
  | nil => rw [columnIndex, List.length_nil]
  | cons c line ih =>
    have hrest := ih (column - charUnits c)
    have hstep := columnIndex_cons_le column c line
    rw [List.length_cons]
    omega

lemma index_zero (h : breakLines t = line :: lines) (column : Nat) :
    index t ⟨0, column⟩ = columnIndex column line := by
  simp [index, h]

/-- A line later, behind a line that has ended. -/
lemma index_succ_of_ends (h : ¬ Continues c t) (n column : Nat) :
    index (c :: t) ⟨n + 1, column⟩ = 1 + index t ⟨n, column⟩ := by
  obtain ⟨line, lines, ht⟩ := exists_breakLines t
  have hmin : min (n + 1) lines.length.succ = min n lines.length + 1 := by omega
  simp only [index, breakLines_of_ends h, ht, List.length_cons, Nat.add_sub_cancel, hmin,
    List.take_succ_cons,
    List.flatten_cons, List.length_append, List.length_nil, List.getD_cons_succ]
  omega

/-- A later line, when the first one goes on and is not the last. -/
lemma index_succ_of_continues (h : Continues c t) (hlf : '\n' ∈ t) (n column : Nat) :
    index (c :: t) ⟨n + 1, column⟩ = 1 + index t ⟨n + 1, column⟩ := by
  obtain ⟨line, lines, ht⟩ := exists_breakLines t
  have hcount := count_lt_length_breakLines t
  have hpos : 0 < t.count '\n' := List.count_pos_iff.mpr hlf
  rw [ht, List.length_cons] at hcount
  obtain ⟨k, hk⟩ : ∃ k, min (n + 1) lines.length = k + 1 := ⟨min n (lines.length - 1), by omega⟩
  simp only [index, breakLines_of_continues h ht, ht, List.length_cons, Nat.add_sub_cancel, hk,
    List.take_succ_cons, List.flatten_cons, List.length_append, List.getD_cons_succ]
  omega

/-- Some lines and the one after them are no longer than all lines. -/
lemma length_take_add_getD_le (lines : List Text) (n : Nat) :
    (lines.take n).flatten.length + (lines.getD n []).length ≤ lines.flatten.length := by
  induction lines generalizing n with
  | nil => simp
  | cons line lines ih =>
    cases n with
    | zero => simp
    | succ n =>
      have hrest := ih n
      simp only [List.take_succ_cons, List.flatten_cons, List.length_append, List.getD_cons_succ]
      omega

lemma index_le (t : Text) (p : Position) : index t p ≤ t.length := by
  have hlines := length_take_add_getD_le (breakLines t) (min p.line ((breakLines t).length - 1))
  rw [flatten_breakLines] at hlines
  exact Nat.le_trans (Nat.add_le_add_left (columnIndex_le _ _) _) hlines

/-- **Before a place** there is every position with fewer lines than the place has line feeds before
it. -/
lemma index_lt (h : n < v.count '\n') (y : Text) (column : Nat) :
    index (v ++ y) ⟨n, column⟩ < v.length := by
  induction v generalizing n column with
  | nil => cases h
  | cons c v ih =>
    obtain ⟨line, lines, ht⟩ := exists_breakLines (v ++ y)
    rw [List.cons_append, List.length_cons]
    by_cases hc : Continues c (v ++ y)
    · rw [List.count_cons_of_ne hc.ne_lf] at h
      cases n with
      | zero =>
        have hstep := columnIndex_cons_le column c line
        have hrest := ih h (column - charUnits c)
        rw [index_zero ht] at hrest
        rw [index_zero (breakLines_of_continues hc ht)]
        omega
      | succ n =>
        have hlf : '\n' ∈ v := List.count_pos_iff.mp (by omega)
        have hrest := ih h column
        rw [index_succ_of_continues hc (List.mem_append_left y hlf)]
        omega
    · cases n with
      | zero =>
        rw [index_zero (breakLines_of_ends hc)]
        by_cases hlf : c = '\n'
        · subst hlf
          have hzero : columnIndex column ['\n'] = 0 := by cases column <;> rfl
          omega
        · have hle : columnIndex column [c] ≤ 1 := columnIndex_le column [c]
          rw [List.count_cons_of_ne hlf] at h
          have := v.count_le_length (a := '\n')
          omega
      | succ n =>
        have hcount : (c :: v).count '\n' ≤ v.count '\n' + 1 := by
          rw [List.count_cons]
          split_ifs <;> omega
        have hrest := ih (n := n) (by omega) column
        rw [index_succ_of_ends hc]
        omega

/-! ### Places -/

/-- No other line end than `LF` and `CRLF` stands before the last character. -/
def PlainInside : Text → Prop
  | [] => True
  | c :: cs => cs = [] ∨ (c = '\n' ∨ Continues c cs) ∧ PlainInside cs

instance decidablePlainInside : (t : Text) → Decidable (PlainInside t)
  | [] => inferInstanceAs (Decidable True)
  | c :: cs =>
    have := decidablePlainInside cs
    inferInstanceAs (Decidable (cs = [] ∨ (c = '\n' ∨ Continues c cs) ∧ PlainInside cs))

/-- One more character at the front. -/
lemma plainInside_cons (hc : c = '\n' ∨ Continues c t) : PlainInside (c :: t) ↔ PlainInside t := by
  cases t with
  | nil => exact iff_of_true (.inl rfl) trivial
  | cons d t => simp [PlainInside, hc]

/-- A beginning of such a text is one. -/
lemma PlainInside.left (h : PlainInside (x ++ y)) : PlainInside x := by
  induction x with
  | nil => trivial
  | cons c x ih =>
    cases x with
    | nil => exact .inl rfl
    | cons d x =>
      obtain h | ⟨hc, h⟩ := h
      · cases h
      · exact .inr ⟨hc, ih h⟩

lemma getLast?_ne_of_cons {d : Char} (h : (c :: x).getLast? ≠ some d) : x.getLast? ≠ some d := by
  intro hx
  rw [List.getLast?_cons, hx] at h
  exact h rfl

/-- A line end other than `LF` ends its line of the document, unless a `LF` follows. -/
lemma not_continues_of_lf_notMem (hbreak : isBreak c) (hlf : '\n' ∉ x)
    (hcr : (c :: x).getLast? ≠ some '\r') (y : Text) : ¬ Continues c (x ++ y) := by
  intro h
  obtain ⟨rfl, hhead⟩ := h hbreak
  cases x with
  | nil => exact hcr rfl
  | cons d x =>
    obtain rfl : d = '\n' := Option.some.inj hhead
    exact hlf List.mem_cons_self

/-- Whether a line goes on shows in the next character. -/
lemma continues_append_iff (h : x ≠ []) (y : Text) : Continues c (x ++ y) ↔ Continues c x := by
  obtain ⟨d, x, rfl⟩ := List.exists_cons_of_ne_nil h
  rfl

/-- **A place on the first line** is found by its column, unless a line of the document ends
before. -/
lemma index_column_iff (hlf : '\n' ∉ x) (hcr : x.getLast? ≠ some '\r') (y : Text) :
    index (x ++ y) ⟨0, units x⟩ = x.length ↔ PlainInside x := by
  induction x with
  | nil =>
    obtain ⟨line, lines, ht⟩ := exists_breakLines y
    exact iff_of_true ((index_zero ht 0).trans (columnIndex_zero line)) trivial
  | cons c x ih =>
    obtain ⟨hc, hx⟩ := not_or.mp (mt List.mem_cons.mpr hlf)
    obtain ⟨line, lines, ht⟩ := exists_breakLines (x ++ y)
    rw [List.cons_append, units, List.length_cons]
    by_cases hbreak : isBreak c
    · -- the line of the document ends here, so nothing may follow
      have hends := not_continues_of_lf_notMem hbreak hx hcr
      have hplain : PlainInside (c :: x) ↔ x = [] := by
        have hnot : ¬ Continues c x := by simpa using hends []
        simp [PlainInside, Ne.symm hc, hnot]
      rw [index_zero (breakLines_of_ends (hends y)), hplain]
      by_cases hreturn : c = '\r'
      · subst hreturn
        refine iff_of_false ?_ (by rintro rfl; exact hcr rfl)
        rw [show charUnits '\r' = 0 + 1 from rfl, Nat.add_right_comm, columnIndex,
          if_pos (.inr rfl)]
        omega
      · rw [columnIndex_cons (Ne.symm hc) hreturn, columnIndex, ← List.length_eq_zero_iff]
        omega
    · have hcontinues : ∀ t, Continues c t := fun t h => absurd h hbreak
      have hne : c ≠ '\r' := by
        rintro rfl
        exact hbreak (by decide)
      rw [plainInside_cons (.inr (hcontinues x)), ← ih hx (getLast?_ne_of_cons hcr), index_zero ht,
        index_zero (breakLines_of_continues (hcontinues _) ht), columnIndex_cons (Ne.symm hc) hne]
      omega

/-- **A place on a later line.** -/
lemma index_wholeLines_iff {whole part : Text} (hwhole : WholeLines whole) (hpart : '\n' ∉ part)
    (hcr : part.getLast? ≠ some '\r') (y : Text) :
    index (whole ++ part ++ y) ⟨whole.count '\n', units part⟩ = (whole ++ part).length ↔
      PlainInside (whole ++ part) := by
  induction whole with
  | nil => exact index_column_iff hpart hcr y
  | cons c whole ih =>
    have hrest : WholeLines whole := WholeLines.right (x := [c]) hwhole
    rw [List.cons_append, List.cons_append, List.length_cons]
    by_cases hc : c = '\n'
    · subst hc
      rw [List.count_cons_self, index_succ_of_ends (not_continues_lf _),
        plainInside_cons (.inl rfl), ← ih hrest]
      omega
    · -- a line feed follows further on
      have hne : whole ≠ [] := by
        rintro rfl
        exact hc (hwhole c rfl)
      have hpos := Text.count_pos_of_wholeLines hrest hne
      obtain ⟨k, hk⟩ := Nat.exists_eq_succ_of_ne_zero (Nat.ne_of_gt hpos)
      have hcongr := continues_append_iff (c := c) (List.append_ne_nil_of_left_ne_nil hne part) y
      rw [List.count_cons_of_ne hc]
      by_cases hcontinues : Continues c (whole ++ part)
      · have hmem : '\n' ∈ whole ++ part ++ y :=
          List.mem_append_left _ (List.mem_append_left _ (List.count_pos_iff.mp hpos))
        rw [plainInside_cons (.inr hcontinues), ← ih hrest, hk, Nat.succ_eq_add_one,
          index_succ_of_continues (hcongr.mpr hcontinues) hmem]
        omega
      · -- the document has counted a line more from here on
        have hlt : index (whole ++ part ++ y) ⟨k, units part⟩ < (whole ++ part).length := by
          refine index_lt ?_ y _
          rw [List.count_append]
          omega
        refine iff_of_false ?_ ?_
        · rw [hk, Nat.succ_eq_add_one, index_succ_of_ends (mt hcongr.mp hcontinues)]
          omega
        · simp [PlainInside, hc, hcontinues, hne]

/-- **One place.** The position of a place that is not behind a `CR` is found at the place exactly
if only `LF` and `CRLF` stand before its last character. -/
lemma index_reported_iff (hcr : x.getLast? ≠ some '\r') (y : Text) :
    index (x ++ y) (Text.byteToPosition (byteLength x) (x ++ y)) = x.length ↔ PlainInside x := by
  rw [Text.byteToPosition_byteLength]
  obtain ⟨whole, part, rfl, hwhole, hpart⟩ := Text.exists_wholeLines x
  rw [Text.foldl_advance hwhole hpart]
  refine index_wholeLines_iff hwhole hpart (fun h => hcr ?_) y
  rw [List.getLast?_append, h, Option.some_or]

/-! ### Changes -/

/-- A text that stands later in one way of putting it in the middle than in another is not
arbitrary. -/
lemma not_length_lt_of_forall {x' y' : Text} (h : ∀ s : Text, x ++ s ++ y = x' ++ s ++ y') :
    ¬ x.length < x'.length := by
  intro hlt
  have hletter : ∀ c : Char, x'[x.length]? = some c := fun c => by
    have hc := congrArg (fun t : Text => t[x.length]?) (h [c])
    simpa [List.getElem?_append, hlt] using hc.symm
  exact absurd ((hletter 'a').symm.trans (hletter 'b')) (by decide)

/-- Two ways to put a text in the middle that agree for every text are the same. -/
lemma parts_eq_of_forall {x' y' : Text} (h : ∀ s : Text, x ++ s ++ y = x' ++ s ++ y') :
    x = x' ∧ y = y' := by
  have hlength : x.length = x'.length :=
    Nat.le_antisymm (Nat.not_lt.mp (not_length_lt_of_forall fun s => (h s).symm))
      (Nat.not_lt.mp (not_length_lt_of_forall h))
  have hnil := h []
  rw [List.append_nil, List.append_nil] at hnil
  exact List.append_inj hnil hlength

/-- **Edits at reported positions.** Take two places of a document, neither directly behind a `CR`,
and the range that is reported for them. Its positions are no larger than the text, so they have 32
bits if the text has fewer than `2 ^ 32` bytes. Replacing this range by a text replaces what stands
between the places, whatever the text is, exactly if no other line end than `LF` and `CRLF` stands
before the last character in front of the second place. -/
theorem edit_at_reported_iff (doc : Document) (o o' : Nat) (x y z w : Text) (hle : o ≤ o')
    (hstart : splitAtByte? o doc.text = some (x, y))
    (hstop : splitAtByte? o' doc.text = some (z, w))
    (hx : x.getLast? ≠ some '\r') (hz : z.getLast? ≠ some '\r') :
    (∀ p ∈ [(byteRange o o' doc.text).start, (byteRange o o' doc.text).stop],
      p.line + p.character ≤ byteLength doc.text) ∧
    ((∀ s, (doc.apply ⟨some (byteRange o o' doc.text), s⟩).text = x ++ s ++ w) ↔
      PlainInside z) := by
  refine ⟨by simp [byteRange, Text.size_byteToPosition], ?_⟩
  obtain ⟨htext, rfl⟩ := Text.splitAtByte?_eq_some_iff.mp hstart
  obtain ⟨htext', rfl⟩ := Text.splitAtByte?_eq_some_iff.mp hstop
  have hx' := index_reported_iff hx y
  have hz' := index_reported_iff hz w
  rw [← htext] at hx'
  rw [← htext'] at hz'
  obtain ⟨between, rfl⟩ : ∃ between, z = x ++ between := by
    obtain ⟨between, hbetween⟩ := Text.exists_takeBytes_eq_append hle doc.text
    rw [htext', Text.takeBytes_byteLength, ← htext', htext, Text.takeBytes_byteLength] at hbetween
    exact ⟨between, hbetween⟩
  constructor
  · intro h
    obtain ⟨htake, hdrop⟩ := parts_eq_of_forall h
    -- both cuts are where they belong
    have hstart := congrArg List.length htake
    have hstop := congrArg List.length hdrop
    have hlength := congrArg List.length htext'
    have hindex := index_le doc.text
      (byteRange (byteLength x) (byteLength (x ++ between)) doc.text).start
    have hindex' := index_le doc.text
      (byteRange (byteLength x) (byteLength (x ++ between)) doc.text).stop
    rw [List.length_take] at hstart
    rw [List.length_drop] at hstop
    rw [List.length_append, List.length_append] at hlength
    cases between with
    | nil =>
      rw [List.append_nil]
      refine hx'.mp ?_
      simp only [byteRange] at *
      omega
    | cons d between =>
      refine hz'.mp ?_
      simp only [byteRange, List.length_append, List.length_cons] at *
      omega
  · intro hplain s
    have hstart := hx'.mpr hplain.left
    have hstop := hz'.mpr hplain
    refine text_apply rfl htext hstart htext' ?_
    rw [byteRange, hstart, hstop, List.length_append]
    omega

/-- A form feed, and a line feed further on. -/
def feedText : Text := ['a', '\x0c', 'b', '\n', 'c']

/-- **An edit that goes astray.** The start of the second line, reported and edited at, is taken for
the place behind the form feed. -/
theorem reported_edit_astray :
    let doc : Document := ⟨feedText, none, 0⟩
    splitAtByte? 4 doc.text = some (['a', '\x0c', 'b', '\n'], ['c']) ∧
    ['a', '\x0c', 'b', '\n'].getLast? ≠ some '\r' ∧
    byteRange 4 4 doc.text = ⟨⟨1, 0⟩, ⟨1, 0⟩⟩ ∧
    (doc.apply ⟨some (byteRange 4 4 doc.text), ['X']⟩).text = ['a', '\x0c', 'X', 'b', '\n', 'c'] ∧
    (doc.apply ⟨some (byteRange 4 4 doc.text), ['X']⟩).text ≠
      ['a', '\x0c', 'b', '\n'] ++ ['X'] ++ ['c'] := by
  decide +kernel

/-- A form feed that ends the text before a place does no harm, and neither does a `CRLF`. -/
theorem edit_at_reported_behind_feed :
    let doc : Document := ⟨['a', '\r', '\n', '😀', '\x0c', 'b'], none, 0⟩
    (doc.apply ⟨some (byteRange 3 8 doc.text), ['X']⟩).text =
      ['a', '\r', '\n'] ++ ['X'] ++ ['b'] := by
  intro doc
  exact (edit_at_reported_iff doc 3 8 ['a', '\r', '\n'] ['😀', '\x0c', 'b']
    ['a', '\r', '\n', '😀', '\x0c'] ['b'] (by decide) (by decide +kernel)
      (by decide +kernel) (by decide)
    (by decide)).2.mpr (by decide) ['X']

end Document

end AutoItServer
