import AutoItServer.Proofs.Symbol.Extent
import AutoItServer.Proofs.Symbol.Moved

/-!
What an outline sees of a block comment.

The outline passes over hidden lines, and so does the search for the end of a region. The search for
the end of a function does not: an `EndFunc` or a header inside a block counts for it like any
other.

* `Outline.KeepsExtents`: another line inside a block does not change the extents of the functions
  above it. `Outline.Quiet` is enough for that: neither line starts with `EndFunc` or with `Func`.
* `exists_kept`: both outlines are read from the same lines, up to their places.
* `sameExtent_below`: a function below the line has the same extent.
* `outline_blind_iff` (**blindness up to extents**): both outlines have the same symbols, up to
  their places, exactly if the extents are kept.
-/

namespace AutoItServer

/-- What a symbol is called, what it is, and where it belongs, without its place. -/
def Symbol.label (s : Symbol) : Text × SymbolKind × Option Text :=
  (s.name, s.kind, s.container)

namespace Outline

open AutoItServer.Text (byteLength takeBytes dropBytes WholeLines Terminates)
open AutoItServer.Source (CommentEdit Concealed codeLines depthOver isMarker)
open AutoItServer.Source.CommentEdit (move_of_le move_of_lt)
open AutoItServer.Extent (endFunc? endFuncHere? hasHeader length? functionEnd? startsHeader someLine
  openHere)

variable {options : SymbolOptions} {e : CommentEdit} {l : Line}

/-! ### The lines that are read -/

/-- The lines around the edited one are moved as a whole. -/
lemma carries_of_mem {above new below : List Line} (h : e.Around above new below)
    (hl : l ∈ above ++ below) : Carries e.move l := by
  refine ⟨h.rigid l hl, fun o => ?_⟩
  have := e.stop_eq
  rcases List.mem_append.mp hl with hl | hl
  · have := h.above_lt l hl
    rw [move_of_le (by omega), CommentEdit.move]
    split_ifs <;> omega
  · have := h.below_gt l hl
    rw [move_of_lt this, CommentEdit.move]
    split_ifs <;> omega

/-- **Both outlines are read from the same lines**, which stand above the edited line or below
it. -/
lemma exists_kept (e : CommentEdit) (options : SymbolOptions) :
    ∃ kept, (∀ l ∈ kept, l ∈ Text.lines e.text ∧ l.moved e.move ∈ Text.lines e.result ∧
        Carries e.move l ∧ (l.offset < e.line.offset ∨ e.stop < l.offset)) ∧
      symbols options e.text = (Progress.start.run options e.text kept).found ∧
      symbols options e.result =
        (Progress.start.run options e.result (kept.map (Line.moved e.move))).found := by
  obtain ⟨above, new, below, h⟩ := e.exists_around
  let m := options.maxLines
  -- the limit may cut off lines below, the edited line, and lines above
  have hbelow : (below.map (Line.moved e.move)).take (m - (above ++ new).length) =
      (below.take (m - (above ++ [e.line]).length)).map (Line.moved e.move) := by
    rcases h.length_new with hnew | ⟨-, rfl⟩
    · rw [List.map_take, List.length_append, List.length_append, hnew]
      rfl
    · simp
  have htext : (Text.lines e.text).take m = above.take m ++ [e.line].take (m - above.length) ++
      below.take (m - (above ++ [e.line]).length) := by
    rw [h.text, List.take_append, List.take_append]
  have hresult : (Text.lines e.result).take m = above.take m ++ new.take (m - above.length) ++
      (below.take (m - (above ++ [e.line]).length)).map (Line.moved e.move) := by
    rw [h.result, List.take_append, List.take_append, hbelow]
  have hconcealed {hidden : List Line} (hplain : ∀ x ∈ hidden, isMarker x.text = false) :
      Concealed 0 (above.take m) (hidden.take (m - above.length)) := by
    intro x hx
    have hall : above.take m = above := by
      refine List.take_of_length_le ?_
      by_contra hlt
      rw [Nat.sub_eq_zero_of_le (by omega), List.take_zero] at hx
      cases hx
    rw [hall]
    exact ⟨hplain x (List.mem_of_mem_take hx), h.opened⟩
  refine ⟨above.take m ++ below.take (m - (above ++ [e.line]).length), fun l hl => ?_, ?_, ?_⟩
  · have hmem : l ∈ above ++ below := by
      rcases List.mem_append.mp hl with hl | hl
      · exact List.mem_append_left _ (List.mem_of_mem_take hl)
      · exact List.mem_append_right _ (List.mem_of_mem_take hl)
    refine ⟨?_, ?_, carries_of_mem h hmem, ?_⟩
    · rw [h.text]
      rcases List.mem_append.mp hmem with hl | hl <;> simp [hl]
    · rw [h.result]
      rcases List.mem_append.mp hmem with hl | hl
      · rw [← h.map_above]
        simp [List.mem_map_of_mem hl]
      · exact List.mem_append_right _ (List.mem_map_of_mem hl)
    · rcases List.mem_append.mp hmem with hl | hl
      · have := h.above_lt l hl
        exact Or.inl (by omega)
      · exact Or.inr (h.below_gt l hl)
  · rw [symbols, htext, Progress.run_drop Progress.fit_start]
    refine hconcealed fun x hx => ?_
    rw [List.mem_singleton.mp hx]
    exact e.plain
  · have hstay : (above.take m).map (Line.moved e.move) = above.take m := by
      rw [List.map_take, h.map_above]
    rw [symbols, hresult, Progress.run_drop Progress.fit_start (hconcealed h.plain),
      List.map_append, hstay]

/-! ### Extents -/

/-- The end of the function at a line. -/
lemma functionEnd?_of_mem {t : Text} (h : l ∈ Text.lines t) :
    functionEnd? t l.offset = some ((length? (dropBytes l.offset t)).map (l.offset + ·)) := by
  obtain ⟨above, term, rest, rfl, -, -, -, -, -, -, hoffset⟩ := Text.exists_cut_of_mem h
  rw [Nat.zero_add] at hoffset
  rw [functionEnd?, hoffset, Text.splitAtByte?_byteLength, Text.dropBytes_byteLength]
  rfl

/-- The symbol of a function says where it ends. -/
lemma functionEnd?_of_mem_symbols {t : Text} {f : Symbol} (h : f ∈ symbols options t)
    (hf : f.kind = .function) : functionEnd? t f.start = some (some f.stop) := by
  obtain ⟨l, hl, hdefines⟩ := exists_defines h hf
  obtain ⟨n, hn, hstop⟩ := hdefines.extent
  rw [hdefines.start, functionEnd?_of_mem (Source.mem_lines_of_mem_codeLines hl), hn, hstop]
  rfl

/-- **A function below the edited line** has the same extent. -/
lemma sameExtent_below (hl : l ∈ Text.lines e.text) (hbelow : e.stop < l.offset) :
    SameExtent e.move e.text e.result l.offset := by
  obtain ⟨above, term, rest, h⟩ := e.exists_parts
  obtain ⟨up, term', rest', htext, -, -, -, -, -, -, hoffset⟩ := Text.exists_cut_of_mem hl
  have hstop : e.stop = byteLength (above ++ e.line.text) := by
    rw [CommentEdit.stop, h.offset, Text.byteLength_append]
  have hcut : up ++ (l.text ++ (term' ++ rest')) = above ++ e.line.text ++ (term ++ rest) := by
    rw [← htext, h.text, List.append_assoc]
  rcases List.append_eq_append_iff.mp hcut with ⟨x, hx, -⟩ | ⟨x, rfl, hx⟩
  · -- the line would start before the edited one ends
    rw [hx, Text.byteLength_append] at hstop
    omega
  · have hmove : e.move l.offset = byteLength (above ++ e.new ++ x) := by
      rw [move_of_lt hbelow, hoffset]
      simp only [Text.byteLength_append]
      omega
    have hresult : e.result = above ++ e.new ++ x ++ (l.text ++ (term' ++ rest')) := by
      rw [h.result, hx]
      simp only [List.append_assoc]
    have hrest : dropBytes (e.move l.offset) e.result = dropBytes l.offset e.text := by
      rw [hmove, hresult, Text.dropBytes_byteLength, hoffset, Nat.zero_add, htext,
        Text.dropBytes_byteLength]
    rw [SameExtent, hrest]
    congr 1
    funext n
    rw [move_of_lt hbelow, move_of_lt (by omega)]
    have := e.stop_eq
    omega

/-- The extents of the functions that are listed above the edited line are the same in both texts,
up to the change of places. -/
def KeepsExtents (options : SymbolOptions) (e : CommentEdit) : Prop :=
  ∀ f, f ∈ symbols options e.text ∨ f ∈ symbols options e.result → f.kind = .function →
    f.start < e.line.offset →
      functionEnd? e.result f.start = (functionEnd? e.text f.start).map (Option.map e.move)

/-- Above the edited line, functions with the same ends have the same extents. -/
lemma sameExtent_above (hl : l ∈ Text.lines e.text) (hmoved : l.moved e.move ∈ Text.lines e.result)
    (habove : l.offset < e.line.offset)
    (h : functionEnd? e.result l.offset = (functionEnd? e.text l.offset).map (Option.map e.move)) :
    SameExtent e.move e.text e.result l.offset := by
  have hstays : e.move l.offset = l.offset := move_of_le (by omega)
  have hresult : functionEnd? e.result l.offset =
      some ((length? (dropBytes l.offset e.result)).map (l.offset + ·)) := by
    have hend := functionEnd?_of_mem hmoved
    rw [Line.moved, hstays] at hend
    exact hend
  rw [hresult, functionEnd?_of_mem hl, Option.map_some, Option.map_map, Option.some.injEq] at h
  rw [SameExtent, hstays]
  exact h

/-- Kept extents give the same symbols. -/
lemma symbols_of_keepsExtents (h : KeepsExtents options e) :
    symbols options e.result = (symbols options e.text).map (Symbol.moved e.move) := by
  obtain ⟨kept, hkept, htext, hresult⟩ := exists_kept e options
  have hrun : (Progress.start.moved e.move).run options e.result (kept.map (Line.moved e.move)) =
      (Progress.start.run options e.text kept).moved e.move := by
    refine Progress.run_moved Progress.fit_start (fun l hl => (hkept l hl).2.2.1)
      fun l hl hlists => ?_
    obtain ⟨hmem, hmoved, -, habove | hbelow⟩ := hkept l hl
    · -- the function is listed in one of the outlines
      refine sameExtent_above hmem hmoved habove ?_
      have hstays : e.move l.offset = l.offset := move_of_le (by omega)
      rcases hlists with ⟨f, hf, hkind, hstart⟩ | ⟨f, hf, hkind, hstart⟩
      · have hends := h f (Or.inl (htext ▸ hf)) hkind (by omega)
        rwa [hstart] at hends
      · rw [hstays] at hstart
        have hends := h f (Or.inr (hresult ▸ hf)) hkind (by omega)
        rwa [hstart] at hends
    · exact sameExtent_below hmem hbelow
  rw [htext, hresult]
  exact congrArg Progress.found hrun

/-- What is moved to a place above the edited line has been there before. -/
lemma move_eq_of_lt (hl : l ∈ codeLines e.text) (hlt : e.move l.offset < e.line.offset) :
    e.move l.offset = l.offset := by
  rcases CommentEdit.lt_or_gt_of_mem_codeLines hl with habove | hbelow
  · exact move_of_le (by omega)
  · rw [move_of_lt hbelow] at hlt
    have := e.stop_eq
    omega

/-- The same symbols give kept extents. -/
lemma keepsExtents_of_symbols
    (h : symbols options e.result = (symbols options e.text).map (Symbol.moved e.move)) :
    KeepsExtents options e := by
  -- a function of the first outline above the line is in both outlines, with its end moved
  have hends {f : Symbol} (hf : f ∈ symbols options e.text) (hkind : f.kind = .function)
      (hstays : e.move f.start = f.start) :
      functionEnd? e.result f.start = (functionEnd? e.text f.start).map (Option.map e.move) := by
    have hmoved : f.moved e.move ∈ symbols options e.result := h ▸ List.mem_map_of_mem hf
    have hend := functionEnd?_of_mem_symbols hmoved hkind
    rw [Symbol.moved, hstays] at hend
    rw [functionEnd?_of_mem_symbols hf hkind, hend]
    rfl
  rintro f (hf | hf) hkind hlt
  · exact hends hf hkind (move_of_le (by omega))
  · rw [h] at hf
    obtain ⟨g, hg, rfl⟩ := List.mem_map.mp hf
    obtain ⟨l, hl, hdefines⟩ := exists_defines hg hkind
    have hstays : e.move g.start = g.start := by
      rw [hdefines.start]
      exact move_eq_of_lt hl (hdefines.start ▸ hlt)
    show functionEnd? e.result (e.move g.start) = (functionEnd? e.text (e.move g.start)).map _
    rw [hstays]
    exact hends hg hkind hstays

/-- **The regions** of both texts are the same, whatever the extents are. -/
lemma regions_result (options : SymbolOptions) (e : CommentEdit) :
    regionsOf (symbols options e.result) =
      (regionsOf (symbols options e.text)).map (Symbol.moved e.move) := by
  obtain ⟨kept, hkept, htext, hresult⟩ := exists_kept e options
  have hstart : Progress.SameRegions e.move .start .start :=
    ⟨rfl, rfl, Progress.fit_start, Progress.fit_start⟩
  rw [htext, hresult]
  exact (hstart.run fun l hl => (hkept l hl).2.2.1).regions

/-! ### Quiet lines -/

/-- Neither line has a word at its start that the search for ends knows, and no lone `Func` stands
directly above, blank lines aside. -/
structure Quiet (e : CommentEdit) : Prop where
  lineEnd : endFuncHere? e.line.text = none
  newEnd : endFuncHere? e.new = none
  lineHeader : startsHeader e.line.text = false
  newHeader : startsHeader e.new = false
  above : someLine openHere true (takeBytes e.line.offset e.text) = false

/-- A line before an end has a terminator. -/
lemma byteLength_pos_of_endFunc? {term rest : Text} {k : Nat} (h : Terminates term rest)
    (hk : endFunc? true rest = some k) : 0 < byteLength term := by
  cases h with
  | lf => decide
  | crlf => decide
  | cr => cases hk
  | none => cases hk

/-- **The extent of a function over a quiet line**: the line counts with its length only. -/
lemma length?_quiet {body rest' line term rest : Text} (hbody : '\n' ∉ body)
    (hrest : WholeLines rest') (hnone : endFunc? true (body ++ '\n' :: rest') = none)
    (hopen : someLine openHere true rest' = false) (hline : '\n' ∉ line) (h : Terminates term rest)
    (hend : endFuncHere? line = none) (hheader : startsHeader line = false) :
    length? (body ++ '\n' :: rest' ++ (line ++ (term ++ rest))) =
      ((endFunc? true rest).filter fun k => !hasHeader true (rest' ++ takeBytes k rest)).map
        fun k => byteLength (body ++ '\n' :: rest') + (byteLength (line ++ term) + k) := by
  have hskip (k : Nat) : hasHeader true
      (rest' ++ takeBytes (byteLength (line ++ term) + k) (line ++ (term ++ rest))) =
        hasHeader true (rest' ++ takeBytes k rest) := by
    rw [← List.append_assoc line, Text.takeBytes_byteLength_add, List.append_assoc line,
      Extent.hasHeader_append hrest hopen, Extent.hasHeader_line hline hheader (h.takeBytes k),
      Extent.hasHeader_append hrest hopen]
  ext n
  rw [Extent.length?_append_of_none hbody hrest hnone, Extent.endFunc?_line hline h, hend,
    Option.none_or, Option.map_eq_some_iff]
  constructor
  · rintro ⟨m, hm, rfl, hheaders⟩
    obtain ⟨k, hk, rfl⟩ := Option.map_eq_some_iff.mp hm
    rw [hskip] at hheaders
    exact ⟨k, by simp [hk, hheaders], rfl⟩
  · rintro ⟨k, hk, rfl⟩
    obtain ⟨hk, hheaders⟩ := Option.filter_eq_some_iff.mp hk
    rw [Bool.not_eq_true'] at hheaders
    exact ⟨_, by rw [hk]; rfl, rfl, by rw [hskip, hheaders]⟩

/-- The lines from a line above down to the edited one. -/
lemma exists_lines_between {above term rest : Text} (h : e.Parts above term rest)
    (hl : l ∈ Text.lines e.text) (habove : l.offset < e.line.offset) :
    ∃ up x, above = up ++ x ∧ x ≠ [] ∧ l.offset = byteLength up ∧
      e.line.offset = l.offset + byteLength x := by
  obtain ⟨up, term', rest', htext, -, -, -, -, -, -, hoffset⟩ := Text.exists_cut_of_mem hl
  rw [Nat.zero_add] at hoffset
  have hplace := h.offset
  rcases List.append_eq_append_iff.mp (htext.symm.trans h.text) with ⟨x, rfl, -⟩ | ⟨x, rfl, -⟩
  · rw [Text.byteLength_append] at hplace
    refine ⟨up, x, rfl, ?_, hoffset, by rw [hplace, hoffset]⟩
    rintro rfl
    rw [Text.byteLength_nil] at hplace
    omega
  · rw [Text.byteLength_append] at hoffset
    omega

/-- Quiet lines keep the end of a function above them. -/
lemma functionEnd?_quiet (hquiet : Quiet e) (hl : l ∈ Text.lines e.text)
    (habove : l.offset < e.line.offset) :
    functionEnd? e.result l.offset = (functionEnd? e.text l.offset).map (Option.map e.move) := by
  obtain ⟨above, term, rest, h⟩ := e.exists_parts
  obtain ⟨up, x, rfl, hne, hoffset, hplace⟩ := exists_lines_between h hl habove
  have hends (w : Text) : functionEnd? (up ++ x ++ (w ++ (term ++ rest))) l.offset =
      some ((length? (x ++ (w ++ (term ++ rest)))).map (l.offset + ·)) := by
    rw [functionEnd?, hoffset, List.append_assoc, Text.splitAtByte?_byteLength]
    rfl
  rw [h.text, h.result, hends, hends, Option.map_some, Option.map_map]
  congr 1
  have hwhole : WholeLines x := h.whole.right
  cases hfirst : endFunc? true x with
  | some n =>
    -- the function ends above the edited line
    rw [Extent.length?_append_of_some hwhole hfirst, Extent.length?_append_of_some hwhole hfirst]
    refine Option.map_congr fun k hk => ?_
    have hle := Extent.endFunc?_le (Extent.length?_eq_some_iff.mp hk).1
    exact (move_of_le (by omega)).symm
  | none =>
    obtain ⟨body, tail, rfl, hbody, htail⟩ := hwhole.exists_lf hne
    have hopen : someLine openHere true tail = false := by
      rw [← Bool.not_eq_true]
      intro htrue
      have hcut : takeBytes e.line.offset e.text = up ++ body ++ ['\n'] ++ tail := by
        rw [h.offset, h.text, Text.takeBytes_byteLength]
        simp
      have hsome := Extent.someLine_append_right (Text.wholeLines_lf (up ++ body)) htrue
      rw [← hcut, hquiet.above] at hsome
      cases hsome
    rw [length?_quiet hbody htail hfirst hopen e.newLine h.terminates hquiet.newEnd
      hquiet.newHeader,
      length?_quiet hbody htail hfirst hopen h.lineEnd h.terminates hquiet.lineEnd
        hquiet.lineHeader,
      Option.map_map, Option.map_map]
    refine Option.map_congr fun k hk => ?_
    have hterm := byteLength_pos_of_endFunc? h.terminates (Option.filter_eq_some_iff.mp hk).1
    have := e.stop_eq
    simp only [Function.comp, Text.byteLength_append] at hplace ⊢
    rw [move_of_lt (by omega)]
    omega

/-- Quiet lines keep all extents. -/
lemma Quiet.keepsExtents (h : Quiet e) (options : SymbolOptions) : KeepsExtents options e := by
  rintro f (hf | hf) hkind hlt
  · obtain ⟨l, hl, hdefines⟩ := exists_defines hf hkind
    rw [hdefines.start] at hlt ⊢
    exact functionEnd?_quiet h (Source.mem_lines_of_mem_codeLines hl) hlt
  · obtain ⟨l, hl, hdefines⟩ := exists_defines hf hkind
    rw [e.codeLines_result] at hl
    obtain ⟨m, hm, rfl⟩ := List.mem_map.mp hl
    have hmoved : f.start = e.move m.offset := hdefines.start
    have hstart : f.start = m.offset := hmoved.trans (move_eq_of_lt hm (hmoved ▸ hlt))
    rw [hstart] at hlt ⊢
    exact functionEnd?_quiet h (Source.mem_lines_of_mem_codeLines hm) hlt

/-! ### The outlines of both texts -/

/-- **Blindness up to extents.** After another line inside a block, an outline has the same regions.
It has the same symbols at their new places exactly if the extents of the functions above the line
are kept; names, kinds and containers are then the same. Lines that start neither with `EndFunc` nor
with `Func` keep the extents, if no lone `Func` stands directly above, blank lines aside. -/
theorem outline_blind_iff (options : SymbolOptions) (e : CommentEdit) :
    regionsOf (symbols options e.result) =
        (regionsOf (symbols options e.text)).map (Symbol.moved e.move) ∧
      (symbols options e.result = (symbols options e.text).map (Symbol.moved e.move) ↔
        KeepsExtents options e) ∧
      (KeepsExtents options e →
        (symbols options e.result).map Symbol.label = (symbols options e.text).map Symbol.label) ∧
      (Quiet e → KeepsExtents options e) := by
  refine ⟨regions_result options e, ⟨keepsExtents_of_symbols, symbols_of_keepsExtents⟩, fun h => ?_,
    fun h => h.keepsExtents options⟩
  rw [symbols_of_keepsExtents h, List.map_map]
  rfl

/-- A line inside a function with a comment in it, and a line with an `EndFunc` that does not start
it. -/
def quietEdit : CommentEdit where
  text := "Func F()\n#cs\nnote\n#ce\nLocal $a\nEndFunc".toList
  line := ⟨2, 13, "note".toList⟩
  new := "; EndFunc".toList
  mem := by decide +kernel
  inside := by decide +kernel
  plain := by decide +kernel
  newPlain := by decide +kernel
  newLine := by decide +kernel

/-- The new line is quiet, so the outline has the same symbols in the same containers. -/
theorem outline_blind_quiet :
    Quiet quietEdit ∧
      (symbols ⟨true, true, 50000⟩ quietEdit.result).map Symbol.label =
        [("F".toList, .function, none), ("$a".toList, .variable, some "F".toList)] := by
  have hquiet : Quiet quietEdit :=
    ⟨by decide +kernel, by decide +kernel, by decide +kernel, by decide +kernel, by decide +kernel⟩
  obtain ⟨-, -, hlabels, hkeeps⟩ := outline_blind_iff ⟨true, true, 50000⟩ quietEdit
  refine ⟨hquiet, (hlabels (hkeeps hquiet)).trans ?_⟩
  decide +kernel

/-- The same line, and an `EndFunc` in its place. -/
def endEdit : CommentEdit :=
  { quietEdit with
    new := "EndFunc".toList
    newPlain := by decide +kernel
    newLine := by decide +kernel }

/-- An `EndFunc` in a block ends the function, and the variable after the block has lost its
container. -/
theorem outline_sees_hidden_end :
    (symbols ⟨true, true, 50000⟩ endEdit.result).map Symbol.label ≠
      (symbols ⟨true, true, 50000⟩ endEdit.text).map Symbol.label := by
  decide +kernel

end Outline

end AutoItServer
