import AutoItServer.Proofs.Text.Line
import Mathlib.Data.List.TakeWhile

/-!
Byte offsets and positions name the same places.

A place cuts a text into what stands before it and what follows. What stands before it consists of
whole lines and of the beginning of one more line, whose UTF-16 units are the column. Reading a
position back finds the same cut, unless the column is past the end of the line without its
terminator.

* `foldl_advance`: the position after whole lines and the beginning of a line.
* `lineStart?_eq_some_iff`: a line starts after as many line feeds as its index says.
* `lineAt?_eq`: the lines an editor shows are the lines of the text, and the empty one behind the
  last line feed.
* `columnToByte_units`, `exists_columnToByte`: columns and the beginnings of a line.
* `BehindReturn`, `SplitsPair`: the places and the columns that do not read back to themselves.
* `positionToByte_byteToPosition`, `byteToPosition_positionToByte`: there and back, from either
  side.
* `byteToPosition_mono`, `positionToByte_mono`: both ways keep the order.
* `positions_roundTrip` (**no drift**): all of it, for every place and every position of a text.
-/

namespace AutoItServer

/-! ### The order of positions -/

namespace Position

lemma le_refl (p : Position) : p ≤ p := .inr ⟨rfl, Nat.le_refl _⟩

lemma le_trans {p q r : Position} (hpq : p ≤ q) (hqr : q ≤ r) : p ≤ r := by
  rcases hpq with hpq | ⟨hpq, hc⟩ <;> rcases hqr with hqr | ⟨hqr, hc'⟩
  · exact .inl (Nat.lt_trans hpq hqr)
  · exact .inl (hqr ▸ hpq)
  · exact .inl (hpq ▸ hqr)
  · exact .inr ⟨hpq.trans hqr, Nat.le_trans hc hc'⟩

lemma line_le {p q : Position} (h : p ≤ q) : p.line ≤ q.line := by
  rcases h with h | ⟨h, -⟩ <;> omega

/-- Reading on moves the position on. -/
lemma le_advance (p : Position) (c : Char) : p ≤ p.advance c := by
  rw [advance]
  split_ifs
  · exact .inl (Nat.lt_succ_self _)
  · exact .inr ⟨rfl, Nat.le_add_right _ _⟩

lemma le_foldl_advance (p : Position) (x : Text) : p ≤ x.foldl advance p := by
  induction x generalizing p with
  | nil => exact le_refl p
  | cons c x ih => exact le_trans (le_advance p c) (ih _)

end Position

namespace Text

variable {t x y whole part rest line : Text} {n o : Nat}

/-! ### Reading a text -/

/-- The position moves on along a line. -/
lemma foldl_advance_of_lf_not_mem (h : '\n' ∉ part) (p : Position) :
    part.foldl Position.advance p = ⟨p.line, p.character + units part⟩ := by
  induction part generalizing p with
  | nil => rfl
  | cons c part ih =>
    obtain ⟨hc, hpart⟩ := not_or.mp (mt List.mem_cons.mpr h)
    rw [List.foldl_cons, ih hpart, Position.advance, if_neg (Ne.symm hc), units, Nat.add_assoc]

/-- Whole lines lead to the start of a line. -/
lemma foldl_advance_of_wholeLines (h : WholeLines whole) (n : Nat) :
    whole.foldl Position.advance ⟨n, 0⟩ = ⟨n + whole.count '\n', 0⟩ := by
  induction whole using lines_induction generalizing n with
  | empty => rfl
  | last body hne hbody => exact absurd (h.eq_nil hbody) hne
  | line body rest hbody ih =>
    have hrest : WholeLines rest := WholeLines.right (x := body ++ ['\n']) (by simpa using h)
    have hcount : (body ++ '\n' :: rest).count '\n' = 1 + rest.count '\n' := by
      rw [List.count_append, List.count_eq_zero.mpr hbody, List.count_cons_self]
      omega
    rw [List.foldl_append, foldl_advance_of_lf_not_mem hbody, List.foldl_cons,
      Position.advance, if_pos rfl, ih hrest, hcount, ← Nat.add_assoc]

/-- **The position** after whole lines and the beginning of a line. -/
lemma foldl_advance (hwhole : WholeLines whole) (hpart : '\n' ∉ part) :
    (whole ++ part).foldl Position.advance ⟨0, 0⟩ = ⟨whole.count '\n', units part⟩ := by
  rw [List.foldl_append, foldl_advance_of_wholeLines hwhole, foldl_advance_of_lf_not_mem hpart,
    Nat.zero_add, Nat.zero_add]

/-- Every text is whole lines and the beginning of a line. -/
lemma exists_wholeLines (x : Text) :
    ∃ whole part, x = whole ++ part ∧ WholeLines whole ∧ '\n' ∉ part := by
  induction x using lines_induction with
  | empty => exact ⟨[], [], rfl, wholeLines_nil, List.not_mem_nil⟩
  | last body _ hbody => exact ⟨[], body, rfl, wholeLines_nil, hbody⟩
  | line body rest _ ih =>
    obtain ⟨whole, part, rfl, hwhole, hpart⟩ := ih
    refine ⟨body ++ ['\n'] ++ whole, part, by simp, ?_, hpart⟩
    exact (wholeLines_lf body).append hwhole

/-! ### Starts of lines -/

/-- Whole lines stay whole lines with a character in front. -/
lemma WholeLines.cons {c : Char} (h : WholeLines whole) (hc : c = '\n' ∨ whole ≠ []) :
    WholeLines (c :: whole) := by
  obtain rfl | hne := hc
  · exact (wholeLines_lf []).append h
  · intro d hd
    obtain ⟨e, whole, rfl⟩ := List.exists_cons_of_ne_nil hne
    rw [List.getLast?_cons_cons] at hd
    exact h d hd

/-- Whole lines that are not empty have a line feed. -/
lemma count_pos_of_wholeLines (h : WholeLines whole) (hne : whole ≠ []) : 0 < whole.count '\n' := by
  rw [List.count_pos_iff]
  by_contra hlf
  exact hne (h.eq_nil hlf)

/-- After whole lines a line starts. -/
lemma lineStart?_of_wholeLines (h : WholeLines whole) (rest : Text) :
    lineStart? (whole.count '\n') (whole ++ rest) = some (byteLength whole, rest) := by
  induction whole with
  | nil => rw [List.count_nil, List.nil_append, lineStart?, byteLength_nil]
  | cons c whole ih =>
    have hwhole : WholeLines whole := WholeLines.right (x := [c]) h
    by_cases hc : c = '\n'
    · subst hc
      rw [List.count_cons_self, List.cons_append, lineStart?, if_pos rfl, ih hwhole]
      rfl
    · have hne : whole ≠ [] := by
        rintro rfl
        exact hc (h c rfl)
      obtain ⟨k, hk⟩ := Nat.exists_eq_succ_of_ne_zero
        (Nat.ne_of_gt (count_pos_of_wholeLines hwhole hne))
      rw [List.count_cons_of_ne hc, hk, List.cons_append, lineStart?, if_neg hc,
        ← Nat.succ_eq_add_one, ← hk, ih hwhole]
      rfl

/-- **The start of a line** stands after whole lines, as many as the index of the line says. -/
lemma lineStart?_eq_some_iff : lineStart? n t = some (o, rest) ↔
    ∃ whole, t = whole ++ rest ∧ WholeLines whole ∧ whole.count '\n' = n ∧
      o = byteLength whole := by
  constructor
  · intro h
    fun_induction lineStart? n t generalizing o with
    | case1 t =>
      obtain ⟨rfl, rfl⟩ := Prod.mk.inj (Option.some.inj h)
      exact ⟨[], rfl, wholeLines_nil, rfl, rfl⟩
    | case2 => cases h
    | case3 n c cs ih =>
      obtain ⟨⟨offset, rest'⟩, hstart, heq⟩ := Option.map_eq_some_iff.mp h
      obtain ⟨rfl, rfl⟩ := Prod.mk.inj heq
      obtain ⟨whole, rfl, hwhole, hcount, rfl⟩ := ih hstart
      by_cases hc : c = '\n'
      · rw [if_pos hc] at hcount
        refine ⟨c :: whole, rfl, hwhole.cons (.inl hc), ?_, rfl⟩
        rw [hc, List.count_cons_self, hcount]
      · rw [if_neg hc] at hcount
        have hne : whole ≠ [] := by
          rintro rfl
          cases hcount
        exact ⟨c :: whole, rfl, hwhole.cons (.inr hne),
          by rw [List.count_cons_of_ne hc, hcount], rfl⟩
  · rintro ⟨whole, rfl, hwhole, rfl, rfl⟩
    exact lineStart?_of_wholeLines hwhole rest

/-- A text has one line more than it has line feeds. -/
lemma isSome_lineStart?_iff : (lineStart? n t).isSome ↔ n ≤ t.count '\n' := by
  fun_induction lineStart? n t with
  | case1 t => simp
  | case2 n => simp
  | case3 n c cs ih =>
    rw [Option.isSome_map, ih]
    by_cases hc : c = '\n'
    · rw [if_pos hc, hc, List.count_cons_self]
      omega
    · rw [if_neg hc, List.count_cons_of_ne hc]

/-- Past the last line feed no further line starts. -/
lemma lineStart?_of_lt (h : t.count '\n' < n) : lineStart? n t = none := by
  rw [← Option.not_isSome_iff_eq_none, isSome_lineStart?_iff]
  omega

/-! ### Columns -/

lemma charUnits_cases (c : Char) : charUnits c = 1 ∨ charUnits c = 2 := by
  rw [charUnits]
  split_ifs
  · exact .inl rfl
  · exact .inr rfl

lemma charUnits_pos (c : Char) : 0 < charUnits c := by
  rcases charUnits_cases c with h | h <;> omega

lemma units_append (x y : Text) : units (x ++ y) = units x + units y := by
  induction x with
  | nil => rw [List.nil_append, units, Nat.zero_add]
  | cons c x ih => rw [List.cons_append, units, ih, units, Nat.add_assoc]

lemma columnToByte_nil (n : Nat) : columnToByte n [] = 0 := by
  rw [columnToByte]

/-- A column is found character by character. -/
lemma columnToByte_cons (n : Nat) (c : Char) (cs : Text) : columnToByte n (c :: cs) =
    if n = 0 then 0 else c.utf8Size + columnToByte (n - charUnits c) cs := by
  cases n with
  | zero => rw [columnToByte, if_pos rfl]
  | succ n => rw [columnToByte, if_neg (Nat.succ_ne_zero n)]

/-- The column of the end of a beginning of a line. -/
lemma columnToByte_units (x y : Text) : columnToByte (units x) (x ++ y) = byteLength x := by
  induction x with
  | nil => cases y <;> rfl
  | cons c x ih =>
    have hpos := charUnits_pos c
    rw [units, List.cons_append, columnToByte_cons, if_neg (by omega), Nat.add_sub_cancel_left, ih,
      byteLength_cons]

/-- A column past the end of the line. -/
lemma columnToByte_of_le (h : units line ≤ n) : columnToByte n line = byteLength line := by
  induction line generalizing n with
  | nil => rw [columnToByte_nil, byteLength_nil]
  | cons c line ih =>
    have hpos := charUnits_pos c
    rw [units] at h
    rw [columnToByte_cons, if_neg (by omega), ih (by omega), byteLength_cons]

/-- **A column** ends a beginning of the line. -/
lemma exists_columnToByte (n : Nat) (line : Text) :
    ∃ x y, line = x ++ y ∧ columnToByte n line = byteLength x := by
  induction line generalizing n with
  | nil => exact ⟨[], [], rfl, columnToByte_nil n⟩
  | cons c line ih =>
    rw [columnToByte_cons]
    split_ifs with h
    · exact ⟨[], c :: line, rfl, rfl⟩
    · obtain ⟨x, y, rfl, hbyte⟩ := ih (n - charUnits c)
      exact ⟨c :: x, y, rfl, by rw [hbyte, byteLength_cons]⟩

lemma columnToByte_mono {m : Nat} (h : m ≤ n) (line : Text) :
    columnToByte m line ≤ columnToByte n line := by
  induction line generalizing m n with
  | nil => simp only [columnToByte_nil, Nat.le_refl]
  | cons c line ih =>
    rw [columnToByte_cons, columnToByte_cons]
    split_ifs with hm hn
    · exact Nat.le_refl 0
    · exact Nat.zero_le _
    · omega
    · exact Nat.add_le_add_left (ih (Nat.sub_le_sub_right h _)) _

/-- A column that stands inside a character of two units. -/
def SplitsPair (line : Text) (column : Nat) : Prop :=
  ∃ x c y, line = x ++ c :: y ∧ charUnits c = 2 ∧ column = units x + 1

/-- Any other column of a line ends a beginning with as many units. -/
lemma exists_units_eq (hle : n ≤ units line) (hpair : ¬ SplitsPair line n) :
    ∃ x y, line = x ++ y ∧ units x = n := by
  induction line generalizing n with
  | nil => exact ⟨[], [], rfl, (Nat.le_zero.mp hle).symm⟩
  | cons c line ih =>
    rw [units] at hle
    by_cases hn : n = 0
    · exact ⟨[], c :: line, rfl, hn.symm⟩
    by_cases hc : charUnits c ≤ n
    · have hrest : ¬ SplitsPair line (n - charUnits c) := by
        rintro ⟨x, d, y, rfl, hd, hcolumn⟩
        refine hpair ⟨c :: x, d, y, rfl, hd, ?_⟩
        rw [units]
        omega
      obtain ⟨x, y, rfl, hx⟩ := ih (by omega) hrest
      exact ⟨c :: x, y, rfl, by rw [units, hx]; omega⟩
    · -- a column before the end of the first character, but not at its start
      have hpos := charUnits_cases c
      exact absurd ⟨[], c, line, rfl, by omega, by rw [units]; omega⟩ hpair

/-- The end of a beginning is not inside a character. -/
lemma not_splitsPair_units (x y : Text) : ¬ SplitsPair (x ++ y) (units x) := by
  rintro ⟨z, c, w, htext, hc, hunits⟩
  rcases List.append_eq_append_iff.mp htext with ⟨between, rfl, -⟩ | ⟨between, rfl, hrest⟩
  · rw [units_append] at hunits
    omega
  · -- the beginning has the character before its end, or ends at its start
    rw [units_append] at hunits
    cases between with
    | nil => rw [units] at hunits; omega
    | cons d between =>
      rw [← (List.cons.inj hrest).1, units, hc] at hunits
      omega

/-! ### The first line -/

/-- The first line is a beginning of the text, and has no line feed. -/
lemma exists_firstLine (t : Text) : ∃ rest, t = firstLine t ++ rest ∧ '\n' ∉ firstLine t := by
  have htext := List.takeWhile_append_dropWhile (p := (· ≠ '\n')) (l := t)
  have hlf : '\n' ∉ t.takeWhile (· ≠ '\n') := by
    intro h
    simpa using List.mem_takeWhile_imp h
  rcases dropLastIf_spec '\r' (t.takeWhile (· ≠ '\n')) with h | h
  · refine ⟨['\r'] ++ t.dropWhile (· ≠ '\n'), ?_, fun hmem => hlf ?_⟩
    · rw [← List.append_assoc, firstLine, ← h, htext]
    · rw [h]
      exact List.mem_append_left _ hmem
  · rw [firstLine, h]
    exact ⟨_, htext.symm, hlf⟩

/-- A beginning of the first line is a beginning of the text. -/
lemma exists_of_firstLine (h : firstLine t = x ++ y) : '\n' ∉ x ∧ ∃ rest, t = x ++ rest := by
  obtain ⟨rest, htext, hlf⟩ := exists_firstLine t
  rw [h] at htext hlf
  exact ⟨fun hx => hlf (List.mem_append_left y hx), y ++ rest, by rw [← List.append_assoc, ← htext]⟩

/-- A place directly behind a carriage return that a line feed or the end of the text follows. -/
def BehindReturn (x y : Text) : Prop :=
  x.getLast? = some '\r' ∧ (y = [] ∨ y.head? = some '\n')

instance (x y : Text) : Decidable (BehindReturn x y) :=
  inferInstanceAs (Decidable (_ ∧ _))

/-- A beginning without line feed belongs to the first line. -/
lemma takeWhile_append_of_lf_not_mem (hpart : '\n' ∉ part) (y : Text) :
    (part ++ y).takeWhile (· ≠ '\n') = part ++ y.takeWhile (· ≠ '\n') := by
  refine List.takeWhile_append_of_pos fun c hc => ?_
  have hne : c ≠ '\n' := fun h => hpart (h ▸ hc)
  simpa using hne

/-- A line that ends here loses its carriage return. -/
lemma firstLine_of_ends (hpart : '\n' ∉ part) (hy : y = [] ∨ y.head? = some '\n') :
    firstLine (part ++ y) = dropLastIf '\r' part := by
  have hline : y.takeWhile (· ≠ '\n') = [] := by
    obtain rfl | hy := hy
    · rfl
    · obtain ⟨y, rfl⟩ := List.head?_eq_some_iff.mp hy
      rfl
  rw [firstLine, takeWhile_append_of_lf_not_mem hpart, hline, List.append_nil]

/-- A line that goes on keeps what it has so far. -/
lemma exists_firstLine_append (hpart : '\n' ∉ part) (hy : ¬ BehindReturn part y) :
    ∃ rest, firstLine (part ++ y) = part ++ rest := by
  by_cases hends : y = [] ∨ y.head? = some '\n'
  · refine ⟨[], ?_⟩
    rw [firstLine_of_ends hpart hends, dropLastIf, if_neg fun hcr => hy ⟨hcr, hends⟩,
      List.append_nil]
  · obtain ⟨c, y, rfl⟩ := List.exists_cons_of_ne_nil (not_or.mp hends).1
    have hc : c ≠ '\n' := by simpa using (not_or.mp hends).2
    refine ⟨dropLastIf '\r' (c :: y.takeWhile (· ≠ '\n')), ?_⟩
    rw [firstLine, takeWhile_append_of_lf_not_mem hpart,
      List.takeWhile_cons_of_pos (by simpa using hc), dropLastIf_append_cons]

/-! ### Lines by their index -/

lemma lineAt?_zero (t : Text) : lineAt? 0 t = some (firstLine t) := by
  cases t <;> rfl

/-- The line after the first line feed is the first line of what follows. -/
lemma lineAt?_succ_lf {body : Text} (h : '\n' ∉ body) (n : Nat) (rest : Text) :
    lineAt? (n + 1) (body ++ '\n' :: rest) = lineAt? n rest := by
  induction body with
  | nil =>
    rw [List.nil_append, lineAt?, lineStart?, if_pos rfl, Option.map_map, lineAt?]
    rfl
  | cons c body ih =>
    obtain ⟨hc, hbody⟩ := not_or.mp (mt List.mem_cons.mpr h)
    rw [List.cons_append, lineAt?, lineStart?, if_neg (Ne.symm hc), Option.map_map,
      ← ih hbody, lineAt?]
    rfl

/-- **The line an editor shows** is the line of the text at that index, or the empty one behind the
last line feed. -/
lemma lineAt?_eq (n : Nat) (t : Text) :
    lineAt? n t = ((lines t).map Line.text)[n]?.or
      (if n = t.count '\n' then some [] else none) := by
  rw [lines, map_text_numberLines]
  induction t using lines_induction generalizing n with
  | empty => cases n <;> rfl
  | last body hne hbody =>
    have hcount : body.count '\n' = 0 := List.count_eq_zero.mpr hbody
    rw [rawLines_of_lf_not_mem hbody hne, hcount]
    cases n with
    | zero =>
      have hline : dropLastIf '\n' body = body :=
        (dropLastIf_spec '\n' body).resolve_left fun h =>
          hbody (h ▸ List.mem_append_right _ (by simp))
      have hfirst := firstLine_of_ends (y := []) hbody (.inl rfl)
      rw [List.append_nil] at hfirst
      rw [lineAt?_zero, hfirst]
      simp [dropTerminator, hline]
    | succ n =>
      rw [lineAt?, lineStart?_of_lt (by omega)]
      rfl
  | line body rest hbody ih =>
    have hcount : (body ++ '\n' :: rest).count '\n' = rest.count '\n' + 1 := by
      rw [List.count_append, List.count_eq_zero.mpr hbody, List.count_cons_self, Nat.zero_add]
    rw [rawLines_lf hbody, hcount]
    cases n with
    | zero =>
      rw [lineAt?_zero, firstLine_of_ends hbody (.inr rfl)]
      simp [dropTerminator, dropLastIf_concat]
    | succ n =>
      rw [lineAt?_succ_lf hbody, ih, List.map_cons, List.getElem?_cons_succ]
      simp only [Nat.add_right_cancel_iff]

/-- A text has as many lines as line feeds, and one more if something stands behind the last of
them. -/
lemma length_rawLines (hwhole : WholeLines whole) (hpart : '\n' ∉ part) :
    (rawLines (whole ++ part)).length =
      (whole ++ part).count '\n' + if part = [] then 0 else 1 := by
  have hcount : (rawLines whole).length = whole.count '\n' := by
    induction whole using lines_induction with
    | empty => rfl
    | last body hne hbody => exact absurd (hwhole.eq_nil hbody) hne
    | line body rest hbody ih =>
      have hrest : WholeLines rest := WholeLines.right (x := body ++ ['\n']) (by simpa using hwhole)
      rw [rawLines_lf hbody, List.length_cons, ih hrest, List.count_append,
        List.count_eq_zero.mpr hbody, List.count_cons_self, Nat.zero_add]
  rw [rawLines_append hwhole, List.length_append, hcount, List.count_append,
    List.count_eq_zero.mpr hpart, Nat.add_zero]
  split_ifs with hnil
  · rw [hnil]
    rfl
  · rw [rawLines_of_lf_not_mem hpart hnil]
    rfl

/-! ### Places -/

/-- The position of a place. -/
lemma byteToPosition_byteLength (x y : Text) :
    byteToPosition (byteLength x) (x ++ y) = x.foldl Position.advance ⟨0, 0⟩ := by
  rw [byteToPosition, takeBytes_byteLength]

/-- The byte offset of a position on a line that exists. -/
lemma positionToByte_of_wholeLines (hwhole : WholeLines whole) (column : Nat) (rest : Text) :
    positionToByte ⟨whole.count '\n', column⟩ (whole ++ rest) =
      byteLength whole + columnToByte column (firstLine rest) := by
  rw [positionToByte, lineStart?_of_wholeLines hwhole]

/-- Whole lines above make no difference to what a place stands behind. -/
lemma behindReturn_append (hwhole : WholeLines whole) (part y : Text) :
    BehindReturn (whole ++ part) y ↔ BehindReturn part y := by
  refine and_congr_left fun _ => ?_
  rw [List.getLast?_append, Option.or_eq_some_iff]
  refine or_iff_left ?_
  rintro ⟨-, hcr⟩
  exact absurd (hwhole _ hcr) (by decide)

/-- **A place read back.** Only a place behind the carriage return of a terminator is not found
again. -/
lemma positionToByte_byteToPosition (x y : Text) :
    positionToByte (byteToPosition (byteLength x) (x ++ y)) (x ++ y) =
      if BehindReturn x y then byteLength x - 1 else byteLength x := by
  obtain ⟨whole, part, rfl, hwhole, hpart⟩ := exists_wholeLines x
  rw [byteToPosition_byteLength, foldl_advance hwhole hpart, List.append_assoc,
    positionToByte_of_wholeLines hwhole, byteLength_append]
  simp only [behindReturn_append hwhole]
  split_ifs with hcr
  · -- the carriage return is not part of the line, and the column is past its end
    obtain ⟨body, rfl⟩ := List.getLast?_eq_some_iff.mp hcr.1
    have hunits : units body ≤ units (body ++ ['\r']) := by
      rw [units_append]
      exact Nat.le_add_right _ _
    rw [firstLine_of_ends hpart hcr.2, dropLastIf_concat, columnToByte_of_le hunits,
      byteLength_append]
    rfl
  · obtain ⟨rest, hline⟩ := exists_firstLine_append hpart hcr
    rw [hline, columnToByte_units]

/-- A line that exists stands between whole lines and the rest of the text. -/
lemma exists_line (h : n ≤ t.count '\n') :
    ∃ whole rest, t = whole ++ rest ∧ WholeLines whole ∧ whole.count '\n' = n ∧
      lineAt? n t = some (firstLine rest) := by
  obtain ⟨⟨o, rest⟩, hstart⟩ := Option.isSome_iff_exists.mp (isSome_lineStart?_iff.mpr h)
  obtain ⟨whole, rfl, hwhole, hcount, -⟩ := lineStart?_eq_some_iff.mp hstart
  exact ⟨whole, rest, rfl, hwhole, hcount, by rw [lineAt?, hstart]; rfl⟩

/-- **The place of a position** on a line that exists. It is on that line. -/
lemma exists_place {p : Position} (h : p.line ≤ t.count '\n') :
    ∃ x y, t = x ++ y ∧ positionToByte p t = byteLength x ∧
      (x.foldl Position.advance ⟨0, 0⟩).line = p.line := by
  obtain ⟨whole, rest, rfl, hwhole, hcount, -⟩ := exists_line h
  obtain ⟨part, after, hline, hbyte⟩ := exists_columnToByte p.character (firstLine rest)
  obtain ⟨hpart, below, hrest⟩ := exists_of_firstLine hline
  refine ⟨whole ++ part, below, ?_, ?_, ?_⟩
  · rw [List.append_assoc, ← hrest]
  · rw [byteLength_append, ← hbyte, ← positionToByte_of_wholeLines hwhole, hcount]
  · rw [foldl_advance hwhole hpart, hcount]

/-- Past the last line there is only the end of the text. -/
lemma positionToByte_of_lt {p : Position} (h : t.count '\n' < p.line) :
    positionToByte p t = byteLength t := by
  rw [positionToByte, lineStart?_of_lt h]

/-- **A position read back**, on a line that exists and at the end of one of its characters. -/
lemma byteToPosition_positionToByte (hwhole : WholeLines whole) (hline : firstLine rest = x ++ y) :
    byteToPosition (positionToByte ⟨whole.count '\n', units x⟩ (whole ++ rest)) (whole ++ rest) =
      ⟨whole.count '\n', units x⟩ := by
  obtain ⟨hx, below, hrest⟩ := exists_of_firstLine hline
  calc byteToPosition (positionToByte ⟨whole.count '\n', units x⟩ (whole ++ rest)) (whole ++ rest)
      = byteToPosition (byteLength (whole ++ x)) (whole ++ rest) := by
        rw [positionToByte_of_wholeLines hwhole, hline, columnToByte_units, byteLength_append]
    _ = (whole ++ x).foldl Position.advance ⟨0, 0⟩ := by
        rw [hrest, ← List.append_assoc, byteToPosition_byteLength]
    _ = ⟨whole.count '\n', units x⟩ := foldl_advance hwhole hx

/-- The offset of a position is the length of a beginning of the text. -/
lemma exists_positionToByte (p : Position) (t : Text) :
    ∃ x y, t = x ++ y ∧ positionToByte p t = byteLength x := by
  by_cases h : p.line ≤ t.count '\n'
  · obtain ⟨x, y, htext, hbyte, -⟩ := exists_place h
    exact ⟨x, y, htext, hbyte⟩
  · exact ⟨t, [], (List.append_nil t).symm, positionToByte_of_lt (Nat.lt_of_not_le h)⟩

lemma positionToByte_le (p : Position) (t : Text) : positionToByte p t ≤ byteLength t := by
  obtain ⟨x, y, rfl, hbyte⟩ := exists_positionToByte p t
  rw [hbyte, byteLength_append]
  exact Nat.le_add_right _ _

/-! ### Order -/

/-- More bytes take a longer beginning. -/
lemma exists_takeBytes_eq_append {m : Nat} (h : m ≤ n) (t : Text) :
    ∃ x, takeBytes n t = takeBytes m t ++ x := by
  induction t generalizing m n with
  | nil => exact ⟨[], rfl⟩
  | cons c t ih =>
    by_cases hc : c.utf8Size ≤ m
    · obtain ⟨x, hx⟩ := ih (Nat.sub_le_sub_right h c.utf8Size)
      refine ⟨x, ?_⟩
      rw [takeBytes, takeBytes, if_pos hc, if_pos (Nat.le_trans hc h), hx, List.cons_append]
    · have hnil : takeBytes m (c :: t) = [] := by rw [takeBytes, if_neg hc]
      exact ⟨takeBytes n (c :: t), by rw [hnil, List.nil_append]⟩

/-- **Positions follow offsets.** -/
lemma byteToPosition_mono {o' : Nat} (h : o ≤ o') (t : Text) :
    byteToPosition o t ≤ byteToPosition o' t := by
  obtain ⟨x, hx⟩ := exists_takeBytes_eq_append h t
  rw [byteToPosition, byteToPosition, hx, List.foldl_append]
  exact Position.le_foldl_advance _ x

/-- A position on a line that exists reads back as a position on that line. -/
lemma line_byteToPosition {p : Position} (h : p.line ≤ t.count '\n') :
    (byteToPosition (positionToByte p t) t).line = p.line := by
  obtain ⟨x, y, rfl, hbyte, hline⟩ := exists_place h
  rw [hbyte, byteToPosition_byteLength, hline]

/-- **Offsets follow positions.** -/
lemma positionToByte_mono {p q : Position} (h : p ≤ q) (t : Text) :
    positionToByte p t ≤ positionToByte q t := by
  by_cases hq : q.line ≤ t.count '\n'
  · rcases h with hline | ⟨hline, hcolumn⟩
    · -- were the offsets the other way round, so would be the lines they read back to
      by_contra hlt
      have hle := Position.line_le (byteToPosition_mono (Nat.le_of_not_le hlt) t)
      rw [line_byteToPosition hq, line_byteToPosition (by omega)] at hle
      omega
    · obtain ⟨whole, rest, rfl, hwhole, hcount, -⟩ := exists_line hq
      have hp : p = ⟨whole.count '\n', p.character⟩ := by rw [hcount, ← hline]
      have hq : q = ⟨whole.count '\n', q.character⟩ := by rw [hcount]
      rw [hp, hq, positionToByte_of_wholeLines hwhole, positionToByte_of_wholeLines hwhole]
      exact Nat.add_le_add_left (columnToByte_mono hcolumn _) _
  · rw [positionToByte_of_lt (Nat.lt_of_not_le hq)]
    exact positionToByte_le p t

/-! ### Size -/

/-- A character has at most as many units as bytes. -/
lemma charUnits_le_utf8Size (c : Char) : charUnits c ≤ c.utf8Size := by
  rw [charUnits]
  split_ifs with h
  · exact c.utf8Size_pos
  · have hfour : c.utf8Size = 4 := by
      rw [Char.utf8Size_eq_four_iff, UInt32.lt_iff_toNat_lt]
      exact Nat.not_lt.mp h
    omega

/-- A character moves the position on by at most its bytes. -/
lemma size_foldl_advance (x : Text) (p : Position) :
    (x.foldl Position.advance p).line + (x.foldl Position.advance p).character ≤
      p.line + p.character + byteLength x := by
  induction x generalizing p with
  | nil => exact Nat.le_refl _
  | cons c x ih =>
    have hstep : (p.advance c).line + (p.advance c).character ≤
        p.line + p.character + c.utf8Size := by
      have hpos := c.utf8Size_pos
      have hunits := charUnits_le_utf8Size c
      rw [Position.advance]
      split_ifs <;> simp only <;> omega
    have hrest := ih (p.advance c)
    rw [List.foldl_cons, byteLength_cons]
    omega

lemma byteLength_takeBytes_le (n : Nat) (t : Text) : byteLength (takeBytes n t) ≤ byteLength t := by
  conv_rhs => rw [← takeBytes_append_dropBytes n t, byteLength_append]
  exact Nat.le_add_right _ _

/-- **Positions fit.** Line and column of a place are at most the size of the text. -/
lemma size_byteToPosition (o : Nat) (t : Text) :
    (byteToPosition o t).line + (byteToPosition o t).character ≤ byteLength t := by
  calc (byteToPosition o t).line + (byteToPosition o t).character
      ≤ 0 + 0 + byteLength (takeBytes o t) := size_foldl_advance (takeBytes o t) ⟨0, 0⟩
    _ = byteLength (takeBytes o t) := Nat.zero_add _
    _ ≤ byteLength t := byteLength_takeBytes_le o t

/-- **No drift.** A place reads back to itself, and one byte before only behind the carriage return
of a terminator. A position on a line of the text, at most at its end and not inside a pair, reads
back to itself. Every position gives a character boundary of the text. Both ways keep the order, and
the position of a place is no larger than the text. -/
theorem positions_roundTrip (t : Text) :
    (∀ o x y, splitAtByte? o t = some (x, y) →
      positionToByte (byteToPosition o t) t = if BehindReturn x y then o - 1 else o) ∧
    (∀ p : Position, p.line ≤ t.count '\n' → ∃ line, lineAt? p.line t = some line ∧
      (p.character ≤ units line → ¬ SplitsPair line p.character →
        byteToPosition (positionToByte p t) t = p)) ∧
    (∀ p, (splitAtByte? (positionToByte p t) t).isSome ∧ positionToByte p t ≤ byteLength t) ∧
    (∀ p q : Position, p ≤ q → positionToByte p t ≤ positionToByte q t) ∧
    (∀ o o', o ≤ o' → byteToPosition o t ≤ byteToPosition o' t) ∧
    ∀ o, (byteToPosition o t).line + (byteToPosition o t).character ≤ byteLength t := by
  refine ⟨?_, ?_, ?_, fun p q h => positionToByte_mono h t, fun o o' h => byteToPosition_mono h t,
    fun o => size_byteToPosition o t⟩
  · intro o x y hsplit
    obtain ⟨rfl, rfl⟩ := splitAtByte?_eq_some_iff.mp hsplit
    exact positionToByte_byteToPosition x y
  · rintro ⟨n, column⟩ hn
    obtain ⟨whole, rest, rfl, hwhole, rfl, hline⟩ := exists_line hn
    refine ⟨firstLine rest, hline, fun hle hpair => ?_⟩
    obtain ⟨x, y, hxy, rfl⟩ := exists_units_eq hle hpair
    exact byteToPosition_positionToByte hwhole hxy
  · intro p
    refine ⟨?_, positionToByte_le p t⟩
    obtain ⟨x, y, rfl, hbyte⟩ := exists_positionToByte p t
    rw [hbyte, splitAtByte?_byteLength, Option.isSome_some]

/-- A line with a pair and a `CRLF`, and a line whose carriage return ends the text. -/
def pairLines : Text := ['a', '😀', '\r', '\n', 'é', '\r']

/-- Between `CR` and `LF` a place reads back one byte before, and at the start of the next line to
itself. -/
theorem positions_roundTrip_pairLines :
    splitAtByte? 6 pairLines = some (['a', '😀', '\r'], ['\n', 'é', '\r']) ∧
    positionToByte (byteToPosition 6 pairLines) pairLines = 5 ∧
    splitAtByte? 7 pairLines = some (['a', '😀', '\r', '\n'], ['é', '\r']) ∧
    positionToByte (byteToPosition 7 pairLines) pairLines = 7 ∧
    lineAt? 0 pairLines = some ['a', '😀'] ∧
    byteToPosition (positionToByte ⟨0, 3⟩ pairLines) pairLines = ⟨0, 3⟩ ∧
    positionToByte ⟨0, 9⟩ pairLines ≤ positionToByte ⟨1, 0⟩ pairLines ∧
    byteToPosition 3 pairLines ≤ byteToPosition 8 pairLines := by
  obtain ⟨hplace, hposition, -, hoffsets, hpositions, -⟩ := positions_roundTrip pairLines
  have hreturn : splitAtByte? 6 pairLines = some (['a', '😀', '\r'], ['\n', 'é', '\r']) := by decide
  have hstart : splitAtByte? 7 pairLines = some (['a', '😀', '\r', '\n'], ['é', '\r']) := by decide
  have hline : lineAt? 0 pairLines = some ['a', '😀'] := by decide
  refine ⟨hreturn, (hplace 6 _ _ hreturn).trans (if_pos (by decide)), hstart,
    (hplace 7 _ _ hstart).trans (if_neg (by decide)), hline, ?_, hoffsets _ _ (.inl (by decide)),
    hpositions 3 8 (by decide)⟩
  obtain ⟨line, hline', hback⟩ := hposition ⟨0, 3⟩ (by decide)
  obtain rfl := Option.some.inj (hline.symm.trans hline')
  exact hback (by decide) (not_splitsPair_units ['a', '😀'] [])

end Text

end AutoItServer
