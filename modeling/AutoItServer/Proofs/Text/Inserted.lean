import AutoItServer.Proofs.Source.Hidden
import AutoItServer.Proofs.Text.Position

/-!
Whole lines that are inserted into a text between two of its lines.

* `shift`: where a line or an offset is found afterwards.
* `Text.rawLines_flatMap`: lines that are written one after another, each with a terminator.
* `Text.lines_inserted` (**the lines afterwards**): the lines above stay, the inserted ones follow,
  and the lines below come later by as many lines and bytes as have been inserted.
-/

namespace AutoItServer

/-- Where a number stands after `added` have been inserted at `start`. -/
def shift (start added x : Nat) : Nat :=
  if start ≤ x then x + added else x

lemma shift_of_le {start added x : Nat} (h : start ≤ x) : shift start added x = x + added :=
  if_pos h

lemma shift_of_lt {start added x : Nat} (h : x < start) : shift start added x = x :=
  if_neg (Nat.not_le.mpr h)

namespace Text

variable {above new eol l : Text}

/-! ### Lines that are written -/

/-- Lines with a terminator behind each are whole lines. -/
lemma wholeLines_flatMap (heol : ∀ rest, Terminates eol rest) (ls : List Text) :
    WholeLines (ls.flatMap (· ++ eol)) := by
  have hwhole : ∀ l, WholeLines (l ++ eol) := by
    intro l
    cases heol ['\n'] with
    | lf => exact wholeLines_lf l
    | crlf => exact List.append_assoc l ['\r'] ['\n'] ▸ wholeLines_lf (l ++ ['\r'])
  induction ls with
  | nil => exact wholeLines_nil
  | cons l ls ih => exact (hwhole l).append ih

/-- **Lines that are written** are read as they are, with their terminators. -/
lemma rawLines_flatMap (heol : ∀ rest, Terminates eol rest) {ls : List Text}
    (hls : ∀ l ∈ ls, '\n' ∉ l) :
    rawLines (ls.flatMap (· ++ eol)) = ls.map (· ++ eol) := by
  have hne : eol ≠ [] := by
    rintro rfl
    cases heol ['\n']
  induction ls with
  | nil => rfl
  | cons l ls ih =>
    obtain ⟨hl, hls⟩ := List.forall_mem_cons.mp hls
    rw [List.flatMap_cons, List.append_assoc, rawLines_terminated hl (heol _),
      if_neg (by simp [hne]), ih hls]
    rfl

/-- The terminator behind a line is dropped, and nothing of the line. -/
lemma dropTerminator_append (heol : ∀ rest, Terminates eol rest) (hl : l.getLast? ≠ some '\r') :
    dropTerminator (l ++ eol) = l := by
  cases heol ['\n'] with
  | lf => rw [dropTerminator, dropLastIf_concat, dropLastIf, if_neg hl]
  | crlf =>
    have hsplit : l ++ ['\r', '\n'] = l ++ ['\r'] ++ ['\n'] :=
      (List.append_assoc l ['\r'] ['\n']).symm
    rw [hsplit, dropTerminator, dropLastIf_concat, dropLastIf_concat]

/-! ### Lines that are inserted -/

/-- The lines of a part start inside it. -/
lemma lt_of_mem_lines {m : Line} (h : m ∈ lines above) :
    m.index < (lines above).length ∧ m.offset < byteLength above := by
  obtain ⟨before, term, rest, rfl, hbefore, -, -, hne, -, hindex, hoffset⟩ := exists_cut_of_mem h
  have hbytes : byteLength (m.text ++ term) ≠ 0 := mt byteLength_eq_zero_iff.mp hne
  rw [Nat.zero_add] at hindex hoffset
  constructor
  · obtain ⟨up, down, hsplit⟩ := List.append_of_mem h
    rw [index_of_numberLines hsplit, hsplit, List.length_append, List.length_cons]
    omega
  · rw [hoffset, byteLength_append, ← List.append_assoc, byteLength_append]
    omega

/-- **The lines afterwards**: whole lines are inserted behind whole lines. -/
lemma lines_inserted (habove : WholeLines above) (hnew : WholeLines new) (below : Text) :
    lines (above ++ (new ++ below)) =
      lines above ++ numberLines (lines above).length (byteLength above) (rawLines new) ++
        (numberLines (lines above).length (byteLength above) (rawLines below)).map
          (Line.relocated (shift (lines above).length (rawLines new).length)
            (shift (byteLength above) (byteLength new))) := by
  have hindex : ∀ k, shift (lines above).length (rawLines new).length ((lines above).length + k) =
      (lines above).length + (rawLines new).length + k := by
    intro k
    rw [shift_of_le (Nat.le_add_right _ k)]
    omega
  have hoffset : ∀ k, shift (byteLength above) (byteLength new) (byteLength above + k) =
      byteLength above + byteLength new + k := by
    intro k
    rw [shift_of_le (Nat.le_add_right _ k)]
    omega
  rw [numberLines_relocated hindex hoffset, lines_append habove, rawLines_append hnew,
    numberLines_append, rawLines_flatten, List.append_assoc]

end Text

end AutoItServer
