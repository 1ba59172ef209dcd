import AutoItServer.Proofs.Path.Place
import AutoItServer.Proofs.Text.Position

/-!
A text is its lines and their terminators.

Lines are found in three ways: by cutting behind each line feed, by taking what stands between two
line feeds, and by going from one line feed to the next. They agree in the index, the start and the
text of every line, and differ in the empty line behind a last line feed only.

* `Text.terminators`: what is taken off each line. `flatten_zipWith_terminators`: together they are
  the text.
* `exists_cut_of_getElem?` (**one line by its index**): the lines above it, itself, its terminator
  and what follows.
* `nextOffset`: where the line after a line starts. `nextOffset_eq`: behind the terminator.
* `lineAt?_eq_splitOnChar`: the line an editor shows is a part between line feeds.
* `lineAt?_length`: the one line more that an editor shows.
* `lines_agree` (**one division into lines**): all of it.
-/

namespace AutoItServer

namespace Text

variable {t : Text} {i : Nat} {l : Line}

/-! ### Terminators -/

/-- What is taken off a line. -/
def terminator (raw : Text) : Text :=
  raw.drop (dropTerminator raw).length

/-- What is taken off the lines of a text, in order. -/
def terminators (t : Text) : List Text :=
  (rawLines t).map terminator

lemma dropTerminator_append_terminator (raw : Text) :
    dropTerminator raw ++ terminator raw = raw := by
  obtain ⟨w, hraw, -⟩ := exists_dropTerminator raw
  exact List.prefix_iff_eq_append.mp ⟨w, hraw.symm⟩

lemma length_terminators (t : Text) : (terminators t).length = (lines t).length := by
  rw [terminators, List.length_map, lines, length_numberLines]

/-- Each line gets back what was taken off. -/
lemma zipWith_numberLines (i o : Nat) (raws : List Text) :
    List.zipWith (fun l term => l.text ++ term) (numberLines i o raws) (raws.map terminator) =
      raws := by
  induction raws generalizing i o with
  | nil => rfl
  | cons raw raws ih =>
    rw [numberLines, List.map_cons, List.zipWith_cons_cons, ih, dropTerminator_append_terminator]

/-- **The text again**: lines and terminators, one after another. -/
lemma flatten_zipWith_terminators (t : Text) :
    (List.zipWith (fun l term => l.text ++ term) (lines t) (terminators t)).flatten = t := by
  rw [lines, terminators, zipWith_numberLines, rawLines_flatten]

/-! ### One line by its index -/

lemma index_of_getElem? (h : (lines t)[i]? = some l) : l.index = i := by
  obtain ⟨hi, rfl⟩ := List.getElem?_eq_some_iff.mp h
  have hlines : numberLines 0 0 (rawLines t) =
      (lines t).take i ++ (lines t)[i] :: (lines t).drop (i + 1) := by
    rw [← List.drop_eq_getElem_cons hi, List.take_append_drop, lines]
  rw [index_of_numberLines hlines, List.length_take,
    Nat.min_eq_left (Nat.le_of_lt hi), Nat.zero_add]

/-- **One line by its index**, with its terminator. As many line feeds stand above it as the index
says. -/
lemma exists_cut_of_getElem? (h : (lines t)[i]? = some l) :
    ∃ above term rest, t = above ++ (l.text ++ (term ++ rest)) ∧ Terminates term rest ∧
      WholeLines above ∧
      above.count '\n' = i ∧ byteLength above = l.offset ∧ (rawLines above).length = i ∧
      rawLines t = rawLines above ++ (l.text ++ term) :: rawLines rest ∧
      terminator (l.text ++ term) = term := by
  obtain ⟨above, term, rest, htext, hwhole, hlf, hends, hne, hdrop, hindex, hoffset⟩ :=
    exists_cut_of_mem (List.mem_of_getElem? h)
  rw [Nat.zero_add, index_of_getElem? h] at hindex
  rw [Nat.zero_add] at hoffset
  have hcount := length_rawLines hwhole List.not_mem_nil
  rw [List.append_nil, if_pos rfl, Nat.add_zero, ← hindex] at hcount
  refine ⟨above, term, rest, htext, hends, hwhole, hcount.symm, hoffset.symm, hindex.symm, ?_, ?_⟩
  · rw [htext, rawLines_append hwhole, rawLines_terminated hlf hends, if_neg hne,
      List.singleton_append]
  · rw [terminator, hdrop, List.drop_left]

/-- Where the line after line `i` starts; the last line is followed by the end of the text. -/
def nextOffset (i : Nat) (t : Text) : Nat :=
  ((lines t)[i + 1]?.map Line.offset).getD (byteLength t)

/-- The first of some lines starts where they do. -/
lemma offset_head_numberLines (i o : Nat) (t : Text) :
    ((numberLines i o (rawLines t))[0]?.map Line.offset).getD (o + byteLength t) = o := by
  cases hraws : rawLines t with
  | nil =>
    have htext := rawLines_flatten t
    rw [hraws, List.flatten_nil] at htext
    rw [← htext]
    rfl
  | cons raw raws => rfl

/-- **The next line** starts behind the terminator. -/
lemma nextOffset_eq {above body term rest : Text}
    (hraws : rawLines t = rawLines above ++ (body ++ term) :: rawLines rest) :
    nextOffset (rawLines above).length t =
      byteLength above + byteLength body + byteLength term := by
  have htext : t = above ++ (body ++ term ++ rest) := by
    have hflatten := congrArg List.flatten hraws
    rwa [List.flatten_append, List.flatten_cons, rawLines_flatten, rawLines_flatten,
      rawLines_flatten] at hflatten
  have hlines : (lines t)[(rawLines above).length + 1]? = (numberLines ((rawLines above).length + 1)
      (byteLength above + byteLength (body ++ term)) (rawLines rest))[0]? := by
    rw [lines, hraws, numberLines_append, List.getElem?_append_right (by simp), length_numberLines,
      Nat.add_sub_cancel_left, numberLines, List.getElem?_cons_succ, rawLines_flatten,
      Nat.zero_add, Nat.zero_add]
  have hend : byteLength t = byteLength above + byteLength (body ++ term) + byteLength rest := by
    rw [htext, byteLength_append, byteLength_append, Nat.add_assoc]
  rw [nextOffset, hlines, hend, offset_head_numberLines, byteLength_append, Nat.add_assoc]

/-! ### The lines an editor shows -/

/-- The line an editor shows is a part between line feeds, without a carriage return at its end. -/
lemma lineAt?_eq_splitOnChar (n : Nat) (t : Text) :
    lineAt? n t = (splitOnChar '\n' t)[n]?.map (dropLastIf '\r') := by
  have hlast : ∀ body : Text, '\n' ∉ body →
      ∀ n, lineAt? n body = [body][n]?.map (dropLastIf '\r') := by
    intro body hbody n
    cases n with
    | zero =>
      have hfirst := firstLine_of_ends (y := []) hbody (.inl rfl)
      rw [List.append_nil] at hfirst
      rw [lineAt?_zero, hfirst]
      rfl
    | succ n =>
      have hcount : body.count '\n' < n + 1 := by
        rw [List.count_eq_zero.mpr hbody]
        exact Nat.succ_pos n
      rw [lineAt?, lineStart?_of_lt hcount]
      rfl
  induction t using lines_induction generalizing n with
  | empty => exact hlast [] List.not_mem_nil n
  | last body _ hbody => rw [splitOnChar_of_notMem hbody, hlast body hbody]
  | line body rest hbody ih =>
    rw [splitOnChar_append, splitOnChar_of_notMem hbody, List.singleton_append]
    cases n with
    | zero =>
      rw [lineAt?_zero, firstLine_of_ends hbody (.inr rfl)]
      rfl
    | succ n => rw [lineAt?_succ_lf hbody, ih, List.getElem?_cons_succ]

/-- A text of whole lines is empty or ends in a line feed. -/
lemma wholeLines_iff : WholeLines t ↔ t = [] ∨ t.getLast? = some '\n' := by
  constructor
  · intro h
    cases hlast : t.getLast? with
    | none => exact Or.inl (List.getLast?_eq_none_iff.mp hlast)
    | some c => exact Or.inr (congrArg some (h c hlast))
  · rintro (rfl | hlast) c hc
    · cases hc
    · exact Option.some.inj (hc.symm.trans hlast)

/-- The number of lines, from the number of line feeds. -/
lemma length_lines (t : Text) :
    (lines t).length = t.count '\n' + if t = [] ∨ t.getLast? = some '\n' then 0 else 1 := by
  obtain ⟨whole, part, rfl, hwhole, hpart⟩ := exists_wholeLines t
  have hiff : WholeLines (whole ++ part) ↔ part = [] := by
    refine ⟨fun h => h.right.eq_nil hpart, ?_⟩
    rintro rfl
    rwa [List.append_nil]
  simp only [lines, length_numberLines, length_rawLines hwhole hpart, ← wholeLines_iff, hiff]

/-- **One line more**: behind the last line of the text an editor shows an empty one, if nothing
stands there. -/
lemma lineAt?_length (t : Text) :
    lineAt? (lines t).length t = if t = [] ∨ t.getLast? = some '\n' then some [] else none := by
  have hnone : ((lines t).map Line.text)[(lines t).length]? = none := by
    rw [List.getElem?_eq_none_iff, List.length_map]
  have hiff : (lines t).length = t.count '\n' ↔ t = [] ∨ t.getLast? = some '\n' := by
    rw [length_lines]
    split_ifs with h <;> simp [h]
  rw [lineAt?_eq, hnone, Option.none_or]
  simp only [hiff]

/-- Behind that there is nothing. -/
lemma lineAt?_of_length_lt (h : (lines t).length < i) : lineAt? i t = none := by
  have hcount : t.count '\n' ≤ (lines t).length := by
    rw [length_lines]
    exact Nat.le_add_right _ _
  rw [lineAt?, lineStart?_of_lt (Nat.lt_of_le_of_lt hcount h)]
  rfl

/-- **One division into lines.** The `i`-th line of a text has the index `i`. It starts at the
offset of the position `⟨i, 0⟩`, its text is the line an editor shows at `i` and stands at that
offset in the text, and the next line starts behind its terminator, which is `LF`, `CRLF`, or at the
end of the text nothing or a lone `CR`. Lines and terminators together are the text. What an editor
shows are the parts between line feeds without a `CR` at their ends. That is one line more, the
empty one, if the text is empty or ends in `LF`, and nothing beyond. -/
theorem lines_agree (t : Text) :
    (∀ i l, (lines t)[i]? = some l →
      l.index = i ∧ positionToByte ⟨i, 0⟩ t = l.offset ∧ lineAt? i t = some l.text ∧
      ∃ above term rest, (terminators t)[i]? = some term ∧ Terminates term rest ∧
        splitAtByte? l.offset t = some (above, l.text ++ (term ++ rest)) ∧
        splitAtByte? (l.offset + byteLength l.text) t = some (above ++ l.text, term ++ rest) ∧
        nextOffset i t = l.offset + byteLength l.text + byteLength term) ∧
    (terminators t).length = (lines t).length ∧
    (List.zipWith (fun l term => l.text ++ term) (lines t) (terminators t)).flatten = t ∧
    (∀ n, lineAt? n t = (splitOnChar '\n' t)[n]?.map (dropLastIf '\r')) ∧
    lineAt? (lines t).length t = (if t = [] ∨ t.getLast? = some '\n' then some [] else none) ∧
    ∀ n, (lines t).length < n → lineAt? n t = none := by
  refine ⟨fun i l h => ?_, length_terminators t, flatten_zipWith_terminators t,
    fun n => lineAt?_eq_splitOnChar n t, lineAt?_length t, fun n => lineAt?_of_length_lt⟩
  obtain ⟨above, term, rest, htext, hends, hwhole, hcount, hoffset, hlength, hraws, hterm⟩ :=
    exists_cut_of_getElem? h
  have hcut : t = above ++ l.text ++ (term ++ rest) := by rw [htext, List.append_assoc]
  refine ⟨index_of_getElem? h, ?_, ?_, above, term, rest, ?_, hends, ?_, ?_, ?_⟩
  · have hstart := positionToByte_of_wholeLines hwhole 0 (l.text ++ (term ++ rest))
    have hcolumn : columnToByte 0 (firstLine (l.text ++ (term ++ rest))) = 0 :=
      columnToByte_units [] _
    rwa [← htext, hcount, hoffset, hcolumn, Nat.add_zero] at hstart
  · rw [lineAt?_eq, List.getElem?_map, h]
    rfl
  · rw [terminators, hraws, List.map_append, List.getElem?_append_right (by simp [hlength]),
      List.length_map, hlength, Nat.sub_self, List.map_cons, List.getElem?_cons_zero, hterm]
  · exact splitAtByte?_eq_some_iff.mpr ⟨htext, hoffset.symm⟩
  · exact splitAtByte?_eq_some_iff.mpr ⟨hcut, by rw [byteLength_append, hoffset]⟩
  · rw [← hlength, ← hoffset]
    exact nextOffset_eq hraws

/-- A line with `CRLF`, an empty one, a character of two bytes, and a lone `CR` at the end. -/
def mixedLines : Text := ['a', '\r', '\n', '\n', 'é', '\r']

/-- The last line starts behind both terminators and ends in a lone `CR`; there is no line behind
it. -/
theorem lines_agree_mixedLines :
    lines mixedLines = [⟨0, 0, ['a']⟩, ⟨1, 3, []⟩, ⟨2, 4, ['é']⟩] ∧
      terminators mixedLines = [['\r', '\n'], ['\n'], ['\r']] ∧
      positionToByte ⟨2, 0⟩ mixedLines = 4 ∧ lineAt? 2 mixedLines = some ['é'] ∧
      nextOffset 0 mixedLines = 3 ∧ lineAt? 3 mixedLines = none ∧ lineAt? 4 mixedLines = none := by
  obtain ⟨hlines, -, -, -, hmore, hbeyond⟩ := lines_agree mixedLines
  obtain ⟨-, hstart, hshown, -⟩ := hlines 2 ⟨2, 4, ['é']⟩ (by decide)
  obtain ⟨-, -, -, above, term, rest, hterm, -, -, -, hnext⟩ := hlines 0 ⟨0, 0, ['a']⟩ (by decide)
  obtain rfl : ['\r', '\n'] = term := Option.some.inj (Eq.trans (by decide) hterm)
  exact ⟨by decide, by decide, hstart, hshown, hnext, hmore, hbeyond 4 (by decide)⟩

end Text

end AutoItServer
