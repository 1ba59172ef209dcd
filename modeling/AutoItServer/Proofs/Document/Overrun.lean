import AutoItServer.Proofs.Document.Splice
import AutoItServer.Proofs.Text.Position

/-!
Ranges that end past the last line of a document.

A position past the last line stands for the end of the text, when it is turned into a byte offset.
When a document is changed, the line is taken back to the last one, but the column is kept. So the
end of the text is reached only if the column reaches the end of the last line.

* `index_of_not_hasLine`: the column is looked for on the last line.
* `Document.ReachesEnd`, `columnToByte_eq_byteLength_iff`: the columns at or past the end of a line.
* `range_past_end_iff` (**what is replaced**): everything from the start on, or only a part of the
  last line.
* `range_past_end_short`: the whole of a text, which is not replaced.
-/

namespace AutoItServer

namespace Document

open Text (splitAtByte? byteLength units positionToByte columnToByte lineAt?)

variable {t : Text} {column : Nat}

/-! ### The last line -/

lemma hasLine_iff {n : Nat} : HasLine t n ↔ n ≤ t.count '\n' := by
  rw [HasLine, lineAt?, Option.isSome_map, Text.isSome_lineStart?_iff]

/-- A plain text has one line more than it has line feeds. -/
lemma length_breakLines (h : PlainBreaks t) : (breakLines t).length = t.count '\n' + 1 := by
  induction t with
  | nil => rfl
  | cons c t ih =>
    by_cases hc : c = '\n'
    · rw [hc, breakLines_lf, List.length_cons, ih h.2, List.count_cons_self]
    · have hrest := ih h.2
      obtain ⟨line, lines, ht⟩ := List.exists_cons_of_length_eq_add_one hrest
      rw [breakLines_cons h hc ht, List.count_cons_of_ne hc, ← hrest, ht, List.length_cons,
        List.length_cons]

/-- **Past the last line** the column is looked for on the last line. -/
lemma index_of_not_hasLine (h : PlainBreaks t) {p : Position} (hp : ¬ HasLine t p.line) :
    index t p = index t ⟨t.count '\n', p.character⟩ := by
  rw [hasLine_iff] at hp
  have hpast : min p.line (t.count '\n') = t.count '\n' := by omega
  simp only [index, length_breakLines h, Nat.add_sub_cancel, hpast, Nat.min_self]

/-- A plain text does not end in `CR`. -/
lemma PlainBreaks.getLast?_ne (h : PlainBreaks t) : t.getLast? ≠ some '\r' := by
  intro hcr
  obtain ⟨body, rfl⟩ := List.getLast?_eq_some_iff.mp hcr
  exact absurd h.right (by decide)

/-- A column that is past the start of the last character of a line, if there is one. -/
def ReachesEnd (line : Text) (column : Nat) : Prop :=
  line = [] ∨ units line.dropLast < column

instance (line : Text) (column : Nat) : Decidable (ReachesEnd line column) :=
  inferInstanceAs (Decidable (_ ∨ _))

/-- Such a column is counted as the end of the line. -/
lemma columnToByte_eq_byteLength_iff (line : Text) (column : Nat) :
    columnToByte column line = byteLength line ↔ ReachesEnd line column := by
  induction line generalizing column with
  | nil => exact iff_of_true (Text.columnToByte_nil column) (.inl rfl)
  | cons c line ih =>
    have hpos := c.utf8Size_pos
    have hunits := Text.charUnits_pos c
    rw [Text.columnToByte_cons, Text.byteLength_cons]
    split_ifs with hzero
    · refine iff_of_false (by omega) ?_
      rintro (h | h)
      · cases h
      · omega
    · rw [Nat.add_left_cancel_iff, ih]
      cases line with
      | nil => exact iff_of_true (.inl rfl) (.inr (Nat.pos_of_ne_zero hzero))
      | cons d line =>
        simp only [ReachesEnd, List.cons_ne_nil, false_or, List.dropLast_cons_cons, units]
        omega

/-- **The end of the text** is reached on the last line. -/
lemma exists_last_line (h : PlainBreaks t) : ∃ line, lineAt? (t.count '\n') t = some line ∧
    ∀ column, positionToByte ⟨t.count '\n', column⟩ t = byteLength t ↔ ReachesEnd line column := by
  obtain ⟨whole, rest, rfl, hwhole, hcount, hline⟩ := Text.exists_line (t := t) (Nat.le_refl _)
  have hlf : '\n' ∉ rest := by
    rw [List.count_append] at hcount
    exact List.count_eq_zero.mp (by omega)
  have hfirst : Text.firstLine rest = rest := by
    have hends := Text.firstLine_of_ends (y := []) hlf (.inl rfl)
    rwa [List.append_nil, Text.dropLastIf, if_neg h.right.getLast?_ne] at hends
  refine ⟨rest, by rw [hline, hfirst], fun column => ?_⟩
  rw [← hcount, Text.positionToByte_of_wholeLines hwhole, hfirst, Text.byteLength_append,
    Nat.add_left_cancel_iff, columnToByte_eq_byteLength_iff]

/-! ### Changes -/

/-- **What is replaced.** Take a text in which `LF` and `CRLF` are the only line ends, and a range
from a line that exists to a line past the last one. A change replaces it as if it ended on the last
line, in the same column. It replaces everything from its start on exactly if nothing follows the
start, or this column reaches the end of the last line. -/
theorem range_past_end_iff (doc : Document) (start stop : Position) (s : Text)
    (hplain : PlainBreaks doc.text) (hstart : HasLine doc.text start.line)
    (hstop : ¬ HasLine doc.text stop.line) :
    let t := doc.text
    let new := (doc.apply ⟨some ⟨start, stop⟩, s⟩).text
    ∃ x y line, splitAtByte? (positionToByte start t) t = some (x, y) ∧
      lineAt? (t.count '\n') t = some line ∧
      IsSplice t new ⟨start, ⟨t.count '\n', stop.character⟩⟩ s ∧
      (new = x ++ s ↔ y = [] ∨ ReachesEnd line stop.character) := by
  intro t new
  let last : Position := ⟨doc.text.count '\n', stop.character⟩
  have hlast : HasLine doc.text last.line := hasLine_iff.mpr (Nat.le_refl _)
  obtain ⟨line, hline, hreaches⟩ := exists_last_line hplain
  obtain ⟨x, y, htext, hindex, hbyte, hcr⟩ := exists_cut hplain hstart
  obtain ⟨x', y', htext', hindex', hbyte', hcr'⟩ := exists_cut hplain hlast
  obtain ⟨z, w, hlater, hmax, hmaxByte, -⟩ := exists_later_cut (htext.symm.trans htext') hcr hcr'
  rw [← htext] at hlater
  have hnew : new = x ++ s ++ w := by
    refine text_apply rfl htext hindex hlater ?_
    rw [hindex, index_of_not_hasLine hplain hstop, hindex', hmax]
  have hend : y' = [] ↔ ReachesEnd line stop.character := by
    rw [← hreaches, hbyte', htext', Text.byteLength_append, ← Text.byteLength_eq_zero_iff]
    omega
  refine ⟨x, y, line, Text.splitAtByte?_eq_some_iff.mpr ⟨htext, hbyte⟩, hline,
    ⟨x, y, z, w, Text.splitAtByte?_eq_some_iff.mpr ⟨htext, hbyte⟩, ?_, hnew⟩, ?_⟩
  · exact Text.splitAtByte?_eq_some_iff.mpr ⟨hlater, by rw [hbyte, hbyte', hmaxByte]⟩
  · -- nothing is left if one of the two cuts is at the end of the text
    have hlength := congrArg List.length htext
    have hlength' := congrArg List.length htext'
    have hlengthz := congrArg List.length hlater
    rw [List.length_append] at hlength hlength' hlengthz
    rw [hnew, List.append_right_eq_self, ← hend, ← List.length_eq_zero_iff,
      ← List.length_eq_zero_iff, ← List.length_eq_zero_iff]
    omega

/-- A line with a character, and one with a character of two units. -/
def pairText : Text := ['a', 'b', '\n', '😀']

/-- A column inside the last character is enough to reach the end. -/
theorem range_past_end_pair :
    ¬ HasLine pairText 7 ∧
      ((Document.mk pairText none 0).apply ⟨some ⟨⟨0, 1⟩, ⟨7, 1⟩⟩, ['X', '\r']⟩).text =
        ['a'] ++ ['X', '\r'] := by
  have hstop : ¬ HasLine pairText 7 := by decide
  obtain ⟨x, y, line, hsplit, hline, -, hiff⟩ :=
    range_past_end_iff ⟨pairText, none, 0⟩ ⟨0, 1⟩ ⟨7, 1⟩
    ['X', '\r'] (by decide) (by decide) hstop
  obtain ⟨rfl, rfl⟩ : x = ['a'] ∧ y = ['b', '\n', '😀'] := by
    have hcut : splitAtByte? (positionToByte ⟨0, 1⟩ pairText) pairText =
        some (['a'], ['b', '\n', '😀']) := by
      decide
    exact Prod.mk.inj (Option.some.inj (hsplit.symm.trans hcut))
  obtain rfl : line = ['😀'] := Option.some.inj (hline.symm.trans (by decide))
  exact ⟨hstop, hiff.mpr (.inr (by decide))⟩

/-- **A whole text that is not replaced.** From the start of a text of one line to the start of the
next line, there is everything when offsets are counted, and nothing when the text is changed. -/
theorem range_past_end_short :
    let doc : Document := ⟨['a', 'b'], none, 0⟩
    PlainBreaks doc.text ∧ HasLine doc.text 0 ∧ ¬ HasLine doc.text 1 ∧
    positionToByte ⟨0, 0⟩ doc.text = 0 ∧ positionToByte ⟨1, 0⟩ doc.text = byteLength doc.text ∧
    (doc.apply ⟨some ⟨⟨0, 0⟩, ⟨1, 0⟩⟩, ['X']⟩).text = ['X', 'a', 'b'] ∧
    (doc.apply ⟨some ⟨⟨0, 0⟩, ⟨1, 0⟩⟩, ['X']⟩).text ≠ ['X'] := by
  decide

end Document

end AutoItServer
