import AutoItServer.Source.Comment
import AutoItServer.Proofs.Text.Case
import AutoItServer.Proofs.Text.Line
import Mathlib.Data.List.TakeWhile

/-!
Lines inside block comments, and what another line in their place changes.

* `Source.isMarker`: a line that opens or closes a block. Blanks at the end of a line make no
  difference (`isMarker_append`), so that a line has the same part in a block with its terminator
  and without.
* `Source.depthOver`: the number of open blocks after some lines.
* `visibleFrom_drop`: lines inside a block that are no markers can be left out.
* `Source.CommentEdit`: a line inside a block, and another line for it. `CommentEdit.move` says
  where a place of the text is afterwards.
* `exists_around` (**the lines of both texts**): above the edited line they are the same, and below
  it they are moved. `codeLines_result` says the same of the code lines.
-/

namespace AutoItServer

/-- A line that starts at another offset. -/
def Line.moved (f : Nat → Nat) (l : Line) : Line :=
  { l with offset := f l.offset }

/-- A line with another index, at another offset. -/
def Line.relocated (g f : Nat → Nat) (l : Line) : Line :=
  { l with index := g l.index, offset := f l.offset }

/-- Lines from another index and another offset on. -/
lemma Text.numberLines_relocated {g f : Nat → Nat} {i i' o o' : Nat} (hg : ∀ k, g (i + k) = i' + k)
    (hf : ∀ k, f (o + k) = o' + k) (raws : List Text) :
    (numberLines i o raws).map (Line.relocated g f) = numberLines i' o' raws := by
  induction raws generalizing i i' o o' with
  | nil => rfl
  | cons raw raws ih =>
    rw [numberLines, numberLines, List.map_cons]
    congr 1
    · exact congrArg₂ (Line.mk · · (dropTerminator raw)) (hg 0) (hf 0)
    · exact ih (fun k => by rw [Nat.add_assoc, hg, Nat.add_assoc])
        fun k => by rw [Nat.add_assoc, hf, Nat.add_assoc]

namespace Source

open AutoItServer.Text (byteLength takeBytes dropBytes rawLines numberLines WholeLines Terminates
  dropTerminator)

variable {t w : Text}

/-! ### Markers -/

/-- A line that opens or closes a block comment. -/
def isMarker (line : Text) : Bool :=
  isBlockStart line || isBlockEnd line

lemma asciiLower_of_isBlank {c : Char} (h : isBlank c) : asciiLower c = c := by
  rw [asciiLower, if_neg]
  intro hc
  rw [Bool.and_eq_true, decide_eq_true_eq, decide_eq_true_eq] at hc
  have hletter : CodeRange.mem c.toNat [(65, 90)] := by
    have hlo : 65 ≤ c.toNat := UInt32.le_iff_toNat_le.mp hc.1
    have hhi : c.toNat ≤ 90 := UInt32.le_iff_toNat_le.mp hc.2
    rw [CodeRange.mem, if_neg (by omega), decide_eq_true hhi, Bool.true_or]
  exact CodeRange.Apart.not_mem (by decide +kernel) hletter h

/-- A keyword does not go on into blanks. -/
lemma afterKeyword?_append {keyword : Text}
    (hkeyword : keyword.all fun k => !isBlank (asciiLower k)) (hw : w.all isBlank) (t : Text) :
    Text.afterKeyword? keyword (t ++ w) = (Text.afterKeyword? keyword t).map (· ++ w) := by
  induction keyword generalizing t with
  | nil => rfl
  | cons k keyword ih =>
    rw [List.all_cons, Bool.and_eq_true, Bool.not_eq_true'] at hkeyword
    cases t with
    | nil =>
      cases w with
      | nil => rfl
      | cons b w =>
        have hb : isBlank b := List.all_eq_true.mp hw b List.mem_cons_self
        have hne : sameAscii k b = false := by
          rw [sameAscii, asciiLower_of_isBlank hb, beq_eq_false_iff_ne]
          rintro rfl
          rw [hb] at hkeyword
          exact absurd hkeyword.1 (by decide)
        simp [Text.afterKeyword?, hne]
    | cons c t =>
      rw [List.cons_append, Text.afterKeyword?, Text.afterKeyword?]
      split_ifs
      · exact ih hkeyword.2 t
      · rfl

lemma isSome_of_startsWithKeyword {keyword line : Text} (h : startsWithKeyword keyword line) :
    (Text.afterKeyword? keyword line).isSome := by
  rw [startsWithKeyword] at h
  split at h
  · cases h
  all_goals rename_i hrest; rw [hrest]; rfl

/-- Keywords that differ in their second letter do not start the same line. -/
lemma startsWithKeyword_eq_false {a b a' b' : Char} {keyword keyword' line : Text}
    (hb : asciiLower b ≠ asciiLower b') (h : startsWithKeyword (a :: b :: keyword) line) :
    startsWithKeyword (a' :: b' :: keyword') line = false := by
  rw [← Bool.not_eq_true]
  intro h'
  obtain ⟨c, cs, rfl, -, hcs⟩ := Text.exists_cons_of_afterKeyword? (isSome_of_startsWithKeyword h)
  obtain ⟨d, ds, rfl, hd, -⟩ := Text.exists_cons_of_afterKeyword? hcs
  obtain ⟨_, _, hline, -, hcs'⟩ :=
    Text.exists_cons_of_afterKeyword? (isSome_of_startsWithKeyword h')
  obtain ⟨_, _, rfl, hd', -⟩ := Text.exists_cons_of_afterKeyword? hcs'
  obtain ⟨-, hrest⟩ := List.cons.inj hline
  rw [← (List.cons.inj hrest).1, hd] at hd'
  exact hb hd'

/-- Blanks at the end of a line do not change the keyword at its start. -/
lemma startsWithKeyword_append {keyword : Text}
    (hkeyword : keyword.all fun k => !isBlank (asciiLower k)) (hw : w.all isBlank) (t : Text) :
    startsWithKeyword keyword (Text.trimStart (t ++ w)) =
      startsWithKeyword keyword (Text.trimStart t) := by
  have hblank : Text.trimStart w = [] := List.dropWhile_eq_nil_iff.mpr (List.all_eq_true.mp hw)
  rw [Text.trimStart, List.dropWhile_append]
  by_cases hnil : Text.trimStart t = []
  · rw [Text.trimStart] at hnil hblank
    rw [Text.trimStart, hnil, if_pos List.isEmpty_nil, hblank]
  · rw [Text.trimStart] at hnil ⊢
    rw [if_neg (by simpa using hnil), startsWithKeyword, startsWithKeyword,
      afterKeyword?_append hkeyword hw]
    rcases Text.afterKeyword? keyword (t.dropWhile isBlank) with - | - | ⟨c, rest⟩
    · rfl
    · cases w with
      | nil => rfl
      | cons b w =>
        have hb : isBlank b := List.all_eq_true.mp hw b List.mem_cons_self
        have hidentifier : isIdentifier b = false := by
          rw [← Bool.not_eq_true]
          exact fun h => not_isBlank_of_isIdentifier h hb
        have hdash : b ≠ '-' := by
          rintro rfl
          exact absurd hb (by decide)
        simp [hidentifier, hdash]
    · rfl

lemma isBlockStart_append (hw : w.all isBlank) (t : Text) :
    isBlockStart (t ++ w) = isBlockStart t := by
  rw [isBlockStart, isBlockStart, startsWithKeyword_append (by decide) hw,
    startsWithKeyword_append (by decide) hw]

lemma isBlockEnd_append (hw : w.all isBlank) (t : Text) : isBlockEnd (t ++ w) = isBlockEnd t := by
  rw [isBlockEnd, isBlockEnd, startsWithKeyword_append (by decide) hw,
    startsWithKeyword_append (by decide) hw]

/-- Blanks at the end of a line do not make or unmake a marker. -/
lemma isMarker_append (hw : w.all isBlank) (t : Text) : isMarker (t ++ w) = isMarker t := by
  rw [isMarker, isMarker, isBlockStart_append hw, isBlockEnd_append hw]

lemma depthAfter_append (hw : w.all isBlank) (d : Nat) (t : Text) :
    depthAfter d (t ++ w) = depthAfter d t := by
  rw [depthAfter, depthAfter, isBlockStart_append hw, isBlockEnd_append hw]

lemma isMarker_dropTerminator (raw : Text) : isMarker (dropTerminator raw) = isMarker raw := by
  obtain ⟨w, hraw, hw⟩ := Text.exists_dropTerminator raw
  rw [← isMarker_append hw, ← hraw]

/-! ### Open blocks -/

/-- The number of open blocks after some lines. -/
def depthOver (depth : Nat) (texts : List Text) : Nat :=
  texts.foldl depthAfter depth

@[simp] lemma depthOver_nil (d : Nat) : depthOver d [] = d := rfl

@[simp] lemma depthOver_cons (d : Nat) (l : Text) (ls : List Text) :
    depthOver d (l :: ls) = depthOver (depthAfter d l) ls := rfl

lemma depthOver_append (d : Nat) (ls ms : List Text) :
    depthOver d (ls ++ ms) = depthOver (depthOver d ls) ms :=
  List.foldl_append

/-- A line that is no marker opens and closes nothing. -/
lemma depthAfter_of_plain (h : isMarker t = false) (d : Nat) : depthAfter d t = d := by
  obtain ⟨hstart, hend⟩ := Bool.or_eq_false_iff.mp h
  rw [depthAfter, hstart, hend]
  rfl

/-- A block that is no longer open has been closed by a line. -/
lemma exists_isBlockEnd {d : Nat} {ls : List Text} (hopen : 0 < d) (hclosed : depthOver d ls = 0) :
    ∃ l ∈ ls, isBlockEnd l := by
  induction ls generalizing d with
  | nil => exact absurd hclosed (by rw [depthOver_nil]; omega)
  | cons l ls ih =>
    by_cases hend : isBlockEnd l
    · exact ⟨l, List.mem_cons_self, hend⟩
    · have hstill : 0 < depthAfter d l := by
        rw [depthAfter, if_neg hend]
        split_ifs <;> omega
      obtain ⟨m, hm, hend⟩ := ih hstill hclosed
      exact ⟨m, List.mem_cons_of_mem l hm, hend⟩

lemma hides_of_pos {d : Nat} (h : 0 < d) (t : Text) : hides d t := by
  rw [hides, decide_eq_true h, Bool.or_true]

/-- What is not hidden stands outside every block, and opens none. -/
lemma depthAfter_of_not_hides {d : Nat} (h : hides d t = false) : d = 0 ∧ depthAfter d t = 0 := by
  rw [hides, Bool.or_eq_false_iff, decide_eq_false_iff_not, Nat.not_lt, Nat.le_zero] at h
  obtain ⟨hstart, rfl⟩ := h
  refine ⟨rfl, ?_⟩
  rw [depthAfter, hstart, if_neg (by decide)]
  split <;> rfl

/-- The visible lines of two parts. -/
lemma visibleFrom_append (d : Nat) (ls ms : List Line) :
    visibleFrom d (ls ++ ms) =
      visibleFrom d ls ++ visibleFrom (depthOver d (ls.map Line.text)) ms := by
  induction ls generalizing d with
  | nil => rfl
  | cons l ls ih =>
    simp only [List.cons_append, visibleFrom, ih, List.map_cons, depthOver_cons]
    split <;> rfl

/-- Whether a line is visible does not depend on where it starts. -/
lemma visibleFrom_moved (f : Nat → Nat) (d : Nat) (ls : List Line) :
    visibleFrom d (ls.map (Line.moved f)) = (visibleFrom d ls).map (Line.moved f) := by
  induction ls generalizing d with
  | nil => rfl
  | cons l ls ih =>
    simp only [List.map_cons, visibleFrom, Line.moved]
    rw [ih]
    split <;> rfl

/-- The visible lines are lines. -/
lemma visibleFrom_sublist (d : Nat) (ls : List Line) : (visibleFrom d ls).Sublist ls := by
  induction ls generalizing d with
  | nil => exact .slnil
  | cons l ls ih =>
    rw [visibleFrom]
    split_ifs
    · exact (ih _).cons l
    · exact (ih _).cons_cons l

lemma mem_lines_of_mem_codeLines {l : Line} (h : l ∈ codeLines t) : l ∈ Text.lines t :=
  (visibleFrom_sublist 0 _).mem h

/-- Where a visible line stands. -/
lemma mem_visibleFrom {d : Nat} {l : Line} {ls : List Line} (h : l ∈ visibleFrom d ls) :
    ∃ above below, ls = above ++ l :: below ∧
      hides (depthOver d (above.map Line.text)) l.text = false := by
  induction ls generalizing d with
  | nil => cases h
  | cons m ls ih =>
    rw [visibleFrom] at h
    have hrest (h : l ∈ visibleFrom (depthAfter d m.text) ls) : ∃ above below,
        m :: ls = above ++ l :: below ∧
        hides (depthOver d (above.map Line.text)) l.text = false := by
      obtain ⟨above, below, rfl, hl⟩ := ih h
      exact ⟨m :: above, below, rfl, hl⟩
    by_cases hm : hides d m.text
    · exact hrest (by simpa [hm] using h)
    · rw [Bool.not_eq_true] at hm
      rcases List.mem_cons.mp (by simpa [hm] using h) with rfl | h
      · exact ⟨[], ls, rfl, hm⟩
      · exact hrest h

/-- Lines that are no markers and stand inside a block. There may be none. -/
def Concealed (d : Nat) (above hidden : List Line) : Prop :=
  ∀ x ∈ hidden, isMarker x.text = false ∧ 0 < depthOver d (above.map Line.text)

/-- **Hidden lines can be left out** of what is visible. -/
lemma visibleFrom_drop {d : Nat} {above hidden : List Line} (h : Concealed d above hidden)
    (below : List Line) :
    visibleFrom d (above ++ hidden ++ below) = visibleFrom d (above ++ below) := by
  rw [List.append_assoc, visibleFrom_append, visibleFrom_append d above below]
  congr 1
  induction hidden with
  | nil => rfl
  | cons x hidden ih =>
    obtain ⟨hx, hdepth⟩ := h x List.mem_cons_self
    rw [List.cons_append, visibleFrom, depthAfter_of_plain hx]
    simp only [hides_of_pos hdepth, if_true]
    exact ih fun y hy => h y (List.mem_cons_of_mem x hy)

/-! ### Another line inside a block -/

/-- A line of a text inside a block comment, and another line to stand in its place. Neither is a
marker. -/
structure CommentEdit where
  text : Text
  line : Line
  new : Text
  mem : line ∈ Text.lines text
  inside : 0 < depthOver 0 (((Text.lines text).take line.index).map Line.text)
  plain : isMarker line.text = false
  newPlain : isMarker new = false
  newLine : '\n' ∉ new

namespace CommentEdit

/-- The text with the other line. -/
def result (e : CommentEdit) : Text :=
  takeBytes e.line.offset e.text ++ e.new ++
    dropBytes (e.line.offset + byteLength e.line.text) e.text

/-- The byte offset at which the old line ends. -/
def stop (e : CommentEdit) : Nat :=
  e.line.offset + byteLength e.line.text

lemma stop_eq (e : CommentEdit) : e.stop = e.line.offset + byteLength e.line.text := rfl

/-- Where a byte offset of the text is in the other text. What follows the line moves by the
difference of the lengths; what stands before it stays, and so does a place in the line as far as
the new line reaches. -/
def move (e : CommentEdit) (o : Nat) : Nat :=
  if o ≤ e.stop then min o (e.line.offset + byteLength e.new)
  else o + byteLength e.new - byteLength e.line.text

variable {e : CommentEdit} {above term rest : Text}

lemma move_of_le {o : Nat} (h : o ≤ e.line.offset) : e.move o = o := by
  rw [move, if_pos (by rw [stop]; omega), Nat.min_eq_left (by omega)]

lemma move_of_lt {o : Nat} (h : e.stop < o) :
    e.move o = o + byteLength e.new - byteLength e.line.text := by
  rw [move, if_neg (by omega)]

/-- The parts of a text around the line: the lines above it, its terminator, and what follows. -/
structure Parts (e : CommentEdit) (above term rest : Text) : Prop where
  text : e.text = above ++ (e.line.text ++ (term ++ rest))
  result : e.result = above ++ (e.new ++ (term ++ rest))
  whole : WholeLines above
  lineEnd : '\n' ∉ e.line.text
  terminates : Terminates term rest
  nonempty : e.line.text ++ term ≠ []
  stripped : dropTerminator (e.line.text ++ term) = e.line.text
  index : e.line.index = (rawLines above).length
  offset : e.line.offset = byteLength above

lemma exists_parts (e : CommentEdit) : ∃ above term rest, e.Parts above term rest := by
  obtain ⟨above, term, rest, htext, hwhole, hline, hends, hne, hdrop, hindex, hoffset⟩ :=
    Text.exists_cut_of_mem e.mem
  rw [Nat.zero_add] at hindex hoffset
  refine ⟨above, term, rest, htext, ?_, hwhole, hline, hends, hne, hdrop, hindex, hoffset⟩
  have hbefore : takeBytes e.line.offset e.text = above := by
    rw [hoffset, htext, Text.takeBytes_byteLength]
  have hafter : dropBytes (e.line.offset + byteLength e.line.text) e.text = term ++ rest := by
    rw [hoffset, htext, ← Text.byteLength_append, ← List.append_assoc, Text.dropBytes_byteLength]
  rw [result, hbefore, hafter, List.append_assoc]

/-- The lines below the edited one. -/
def belowOf (e : CommentEdit) (term rest : Text) : List Line :=
  numberLines (e.line.index + 1) (e.stop + byteLength term) (rawLines rest)

lemma Parts.lines_text (h : e.Parts above term rest) :
    Text.lines e.text = Text.lines above ++ e.line :: e.belowOf term rest := by
  conv_lhs => rw [h.text]
  rw [Text.lines_append h.whole, Text.rawLines_terminated h.lineEnd h.terminates, if_neg h.nonempty,
    Text.numberLines_append, numberLines, numberLines, h.stripped, Text.lines,
    Text.length_numberLines, ← h.index, ← h.offset, belowOf, stop]
  simp [Nat.add_assoc]

/-- A block is open where the edited line stands. -/
lemma Parts.opened (h : e.Parts above term rest) :
    0 < depthOver 0 ((Text.lines above).map Line.text) := by
  have htake : (Text.lines e.text).take e.line.index = Text.lines above := by
    rw [h.lines_text, h.index]
    exact List.take_left' (Text.length_numberLines 0 0 _)
  exact htake ▸ e.inside

/-- Lines from another offset on. -/
lemma numberLines_map {o o' : Nat} {f : Nat → Nat} (hf : ∀ k, f (o + k) = o' + k) (i : Nat)
    (raws : List Text) :
    (numberLines i o raws).map (Line.moved f) = numberLines i o' raws :=
  Text.numberLines_relocated (g := id) (fun _ => rfl) hf raws

lemma Parts.map_below (h : e.Parts above term rest) :
    (e.belowOf term rest).map (Line.moved e.move) =
      numberLines (e.line.index + 1) (e.line.offset + byteLength e.new + byteLength term)
        (rawLines rest) := by
  have hends := h.terminates
  by_cases hterm : term = []
  · subst hterm
    rw [belowOf, hends.rest_eq_nil]
    rfl
  · obtain ⟨c, cs, rfl⟩ := List.exists_cons_of_ne_nil hterm
    refine numberLines_map (fun k => ?_) _ _
    have := c.utf8Size_pos
    rw [move, if_neg (by rw [Text.byteLength_cons]; omega), stop]
    omega

/-- The lines that stand for the edited one: no line if nothing is left of the last line. -/
def newLines (e : CommentEdit) (term : Text) : List Line :=
  if e.new ++ term = [] then []
  else [⟨e.line.index, e.line.offset, dropTerminator (e.new ++ term)⟩]

lemma Parts.lines_result (h : e.Parts above term rest) :
    Text.lines e.result =
      Text.lines above ++ e.newLines term ++ (e.belowOf term rest).map (Line.moved e.move) := by
  rw [h.result, Text.lines_append h.whole, Text.rawLines_terminated e.newLine h.terminates,
    Text.numberLines_append, h.map_below, List.append_assoc, Text.lines, Text.length_numberLines,
    ← h.index, ← h.offset, newLines]
  congr 1
  by_cases hnil : e.new ++ term = []
  · have hends := h.terminates
    rw [(List.append_eq_nil_iff.mp hnil).2] at hends
    rw [if_pos hnil, if_pos hnil, hends.rest_eq_nil]
    rfl
  · rw [if_neg hnil, if_neg hnil]
    simp [numberLines, Nat.add_assoc]

/-- The lines of both texts around the edited one. -/
structure Around (e : CommentEdit) (above new below : List Line) : Prop where
  text : Text.lines e.text = above ++ [e.line] ++ below
  result : Text.lines e.result = above ++ new ++ below.map (Line.moved e.move)
  plain : ∀ x ∈ new, isMarker x.text = false
  opened : 0 < depthOver 0 (above.map Line.text)
  length_new : new.length = 1 ∨ new = [] ∧ below = []
  above_lt : ∀ l ∈ above, l.offset + byteLength l.text < e.line.offset
  below_gt : ∀ l ∈ below, e.stop < l.offset

/-- **The lines of both texts** are the same above the edited one, and moved below it. -/
lemma exists_around (e : CommentEdit) : ∃ above new below, e.Around above new below := by
  obtain ⟨above, term, rest, h⟩ := e.exists_parts
  have htext := h.lines_text
  have hpairwise := Text.pairwise_numberLines 0 0 e.text
  rw [← Text.lines, htext, List.pairwise_append, List.pairwise_cons] at hpairwise
  obtain ⟨-, ⟨hbelow, -⟩, habove⟩ := hpairwise
  refine ⟨Text.lines above, e.newLines term, e.belowOf term rest, ?_, ?_, ?_, ?_, ?_, ?_, ?_⟩
  · rw [htext, List.append_assoc]
    rfl
  · exact h.lines_result
  · intro x hx
    rw [newLines] at hx
    split_ifs at hx
    · cases hx
    · obtain rfl := List.mem_singleton.mp hx
      rw [isMarker_dropTerminator, isMarker_append h.terminates.isBlank, e.newPlain]
  · exact h.opened
  · rw [newLines]
    split_ifs with hnil
    · have hends := h.terminates
      rw [(List.append_eq_nil_iff.mp hnil).2] at hends
      refine Or.inr ⟨rfl, ?_⟩
      rw [belowOf, hends.rest_eq_nil]
      rfl
    · exact Or.inl rfl
  · exact fun l hl => habove l hl e.line List.mem_cons_self
  · exact fun l hl => hbelow l hl

/-- The lines above the edited one stay where they are. -/
lemma Around.map_above {above new below : List Line} (h : e.Around above new below) :
    above.map (Line.moved e.move) = above := by
  refine (List.map_congr_left fun l hl => ?_).trans (List.map_id above)
  have := h.above_lt l hl
  rw [Line.moved, move_of_le (by omega), id]

/-- **A line moves as a whole**: each place of it keeps its distance from the start. -/
lemma Around.rigid {above new below : List Line} (h : e.Around above new below) :
    ∀ l ∈ above ++ below, ∀ k ≤ byteLength l.text, e.move (l.offset + k) = e.move l.offset + k := by
  intro l hl k hk
  rcases List.mem_append.mp hl with hl | hl
  · have := h.above_lt l hl
    rw [move_of_le (by omega), move_of_le (by omega)]
  · have := h.below_gt l hl
    rw [move_of_lt (by omega), move_of_lt (by omega)]
    have : byteLength e.line.text ≤ e.stop := Nat.le_add_left _ _
    omega

lemma Around.concealed_text {above new below : List Line} (h : e.Around above new below) :
    Concealed 0 above [e.line] := by
  intro x hx
  obtain rfl := List.mem_singleton.mp hx
  exact ⟨e.plain, h.opened⟩

lemma Around.concealed_result {above new below : List Line} (h : e.Around above new below) :
    Concealed 0 above new :=
  fun x hx => ⟨h.plain x hx, h.opened⟩

/-- **The code lines** of both texts are the same, at their new places. -/
lemma codeLines_result (e : CommentEdit) :
    codeLines e.result = (codeLines e.text).map (Line.moved e.move) := by
  obtain ⟨above, new, below, h⟩ := e.exists_around
  rw [codeLines, codeLines, h.result, h.text, visibleFrom_drop h.concealed_result,
    visibleFrom_drop h.concealed_text, ← visibleFrom_moved, List.map_append, h.map_above]

/-- A code line stands above the edited line or below it. -/
lemma lt_or_gt_of_mem_codeLines {l : Line} (hl : l ∈ codeLines e.text) :
    l.offset < e.line.offset ∨ e.stop < l.offset := by
  obtain ⟨above, new, below, h⟩ := e.exists_around
  rw [codeLines, h.text, visibleFrom_drop h.concealed_text] at hl
  rcases List.mem_append.mp ((visibleFrom_sublist 0 _).mem hl) with hl | hl
  · have := h.above_lt l hl
    exact Or.inl (by omega)
  · exact Or.inr (h.below_gt l hl)

end CommentEdit

end Source

end AutoItServer
