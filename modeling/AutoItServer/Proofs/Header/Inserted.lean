import AutoItServer.Proofs.Function.Line
import AutoItServer.Proofs.Header.Behind
import AutoItServer.Proofs.Include.Precedence
import AutoItServer.Proofs.Source.Blind
import AutoItServer.Proofs.Symbol.Apart
import AutoItServer.Proofs.Text.Inserted

/-!
Comment lines that are inserted above a definition.

The search for definitions passes over them, and the comment lines above another definition do not
reach beyond the line of the first one.

* `CommentInsertion`: the lines, and the definition above which they are inserted.
* `CommentInsertion.Cut`: the text cut in two there. `Cut.exists_lines_result` gives the lines
  afterwards.
* `CommentInsertion.findAll_result` (**the definitions**): the same as before, at their new places.
* `above?_result`, `blockAbove_result` (**the headers**): those of other definitions stay, and that
  of the edited one goes on with the inserted lines.
* `keys_result`, `exists_of_find?`, `ofDef_result` (**the signatures**): those of other definitions
  only move.
-/

namespace AutoItServer

open AutoItServer.Text (byteLength rawLines numberLines WholeLines Terminates dropTerminator)

namespace Header

variable {line : Text}

/-! ### Comment lines and header lines -/

lemma Plain.exists_cons (h : Plain line) : ∃ rest, line = ';' :: rest :=
  List.head?_eq_some_iff.mp h.marked

lemma Plain.isCommentLine (h : Plain line) : isCommentLine line := by
  obtain ⟨rest, rfl⟩ := h.exists_cons
  rfl

lemma Plain.head?_eq_none (h : Plain line) : FunctionDef.head? line = none := by
  obtain ⟨rest, rfl⟩ := h.exists_cons
  rfl

lemma Plain.isMarker_eq_false (h : Plain line) : Source.isMarker line = false := by
  obtain ⟨rest, rfl⟩ := h.exists_cons
  rfl

/-- The header of a definition is no comment line. -/
lemma not_isCommentLine_of_head? {name rest : Text}
    (h : FunctionDef.head? line = some (name, rest)) :
    isCommentLine line = false := by
  obtain ⟨c, cs, hdrop, hletter⟩ : ∃ c cs, line.dropWhile isIndent = c :: cs ∧
      (asciiLower c = 'v' ∨ asciiLower c = 'f') := by
    rcases FunctionDef.head?_cases h with hvolatile | ⟨b, after, -, -, hfunc, -⟩
    · obtain ⟨after, hafter⟩ := Option.isSome_iff_exists.mp hvolatile
      obtain ⟨c, cs, hdrop, hsame⟩ := Text.exists_cons_of_afterFolded? hafter
      exact ⟨c, cs, hdrop, .inl (asciiLower_of_sameFold (by decide +kernel) hsame)⟩
    · obtain ⟨c, cs, hdrop, hsame⟩ := Text.exists_cons_of_afterFolded? hfunc
      exact ⟨c, cs, hdrop, .inr (asciiLower_of_sameFold (by decide +kernel) hsame)⟩
  have hblank : ¬ AutoItServer.isBlank c := by
    intro hblank
    rw [Source.asciiLower_of_isBlank hblank] at hletter
    rcases hletter with rfl | rfl <;> exact absurd hblank (by decide)
  have htrim : Text.trimStart line = c :: cs := by
    rw [← List.takeWhile_append_dropWhile (p := isIndent) (l := line), hdrop,
      Text.trimStart_append fun x hx => isBlank_of_isIndent (List.mem_takeWhile_imp hx),
      Text.trimStart_cons hblank]
  rw [isCommentLine, htrim, beq_eq_false_iff_ne]
  intro hc
  obtain rfl := Option.some.inj hc
  exact absurd hletter (by decide)

end Header

/-! ### Comment lines above a definition -/

/-- Comment lines to insert above the line of a definition. -/
structure CommentInsertion where
  text : Text
  target : FunctionDef
  found : target ∈ FunctionDef.findAll text
  new : List Text
  plain : ∀ line ∈ new, Header.Plain line
  eol : Text
  terminates : ∀ rest, Terminates eol rest

namespace CommentInsertion

variable {e : CommentInsertion} {above below : Text} {d : FunctionDef}

/-- The text that is inserted. -/
def added (e : CommentInsertion) : Text :=
  e.new.flatMap (· ++ e.eol)

/-- The text afterwards. -/
def result (e : CommentInsertion) : Text :=
  Text.takeBytes e.target.offset e.text ++ (e.added ++ Text.dropBytes e.target.offset e.text)

/-- Where a line is found afterwards. -/
def lineAfter (e : CommentInsertion) : Nat → Nat :=
  shift e.target.line e.new.length

/-- Where an offset is found afterwards. -/
def offsetAfter (e : CommentInsertion) : Nat → Nat :=
  shift e.target.offset (byteLength e.added)

/-- The lines from the definition on. -/
def linesBelow (e : CommentInsertion) (below : Text) : List Line :=
  numberLines e.target.line e.target.offset (rawLines below)

/-- The text cut in two above the definition, where the search is outside of lists. -/
structure Cut (e : CommentInsertion) (above below : Text) : Prop where
  text : e.text = above ++ below
  whole : WholeLines above
  line : (Text.lines above).length = e.target.line
  offset : byteLength above = e.target.offset
  looking : (FunctionDef.State.start.run (Text.lines above)).reader = .looking
  header : ∃ l ls, e.linesBelow below = l :: ls ∧ Header.isCommentLine l.text = false

lemma exists_cut (e : CommentInsertion) : ∃ above below, e.Cut above below := by
  obtain ⟨up, l, down, hlines, ⟨hlooking, -, rest, hhead⟩, hline, hindex, hoffset⟩ :=
    FunctionDef.exists_header_of_mem e.found
  have hmem : l ∈ Text.lines e.text := hlines ▸ List.mem_append_right up List.mem_cons_self
  obtain ⟨above, term, rest', htext, hwhole, -, -, -, -, hrow, hbyte⟩ := Text.exists_cut_of_mem hmem
  have hlength : (Text.lines above).length = e.target.line := by
    rw [Text.lines, Text.length_numberLines, ← hindex, hrow, Nat.zero_add]
  have hbytes : byteLength above = e.target.offset := by
    rw [← hoffset, hbyte, Nat.zero_add]
  have hcut := Text.lines_append hwhole (l.text ++ (term ++ rest'))
  rw [← htext, hlines, hlength, hbytes] at hcut
  obtain ⟨rfl, hbelow⟩ := List.append_inj hcut (by rw [hlength, hline])
  exact ⟨above, l.text ++ (term ++ rest'), htext, hwhole, hlength, hbytes, hlooking, l,
    down, hbelow.symm, Header.not_isCommentLine_of_head? hhead⟩

lemma Cut.result_eq (h : e.Cut above below) : e.result = above ++ (e.added ++ below) := by
  rw [result, h.text, ← h.offset, Text.takeBytes_byteLength, Text.dropBytes_byteLength]

/-! ### The lines of both texts -/

lemma rawLines_added (e : CommentInsertion) : rawLines e.added = e.new.map (· ++ e.eol) :=
  Text.rawLines_flatMap e.terminates fun line hline => (e.plain line hline).oneLine

lemma wholeLines_added (e : CommentInsertion) : WholeLines e.added :=
  Text.wholeLines_flatMap e.terminates e.new

lemma count_added (e : CommentInsertion) : e.added.count '\n' = e.new.length := by
  have hlength := Text.length_rawLines e.wholeLines_added (List.not_mem_nil (a := '\n'))
  rw [List.append_nil, e.rawLines_added, List.length_map, if_pos rfl, Nat.add_zero] at hlength
  exact hlength.symm

lemma Cut.lines_text (h : e.Cut above below) :
    Text.lines e.text = Text.lines above ++ e.linesBelow below := by
  rw [h.text, Text.lines_append h.whole, h.line, h.offset, linesBelow]

/-- **The lines afterwards**: the inserted ones, as they were written, between the others. -/
lemma Cut.exists_lines_result (h : e.Cut above below) : ∃ lines :
    List Line, lines.map Line.text = e.new ∧
    Text.lines e.result =
      Text.lines above ++ lines ++ (e.linesBelow below).map
        (Line.relocated e.lineAfter e.offsetAfter) := by
  have hdrop : ∀ line ∈ e.new, dropTerminator (line ++ e.eol) = line := by
    intro line hline
    obtain ⟨-, c, hc, hlast⟩ := (e.plain line hline).solid
    refine Text.dropTerminator_append e.terminates fun hcr => hlast ?_
    rw [Option.mem_def, hcr] at hc
    exact Option.some.inj hc ▸ by decide
  have hlines := Text.lines_inserted h.whole (Text.wholeLines_flatMap e.terminates e.new) below
  refine ⟨numberLines e.target.line e.target.offset (rawLines e.added), ?_, ?_⟩
  · rw [Text.map_text_numberLines, rawLines_added, List.map_map]
    exact (List.map_congr_left hdrop).trans (List.map_id e.new)
  · have hlength : (rawLines e.added).length = e.new.length := by
      rw [rawLines_added, List.length_map]
    rw [h.result_eq, added, hlines, h.line, h.offset, ← added, hlength]
    rfl

/-- The start of the definition's line, as a position. -/
lemma positionToByte_target (e : CommentInsertion) :
    Text.positionToByte ⟨e.target.line, 0⟩ e.text = e.target.offset := by
  obtain ⟨above, below, h⟩ := e.exists_cut
  have hcount : above.count '\n' = e.target.line := by
    have hlength := Text.length_rawLines h.whole (List.not_mem_nil (a := '\n'))
    rw [List.append_nil, if_pos rfl, Nat.add_zero] at hlength
    rw [← hlength, ← h.line, Text.lines, Text.length_numberLines]
  rw [h.text, ← hcount, Text.positionToByte_of_wholeLines h.whole, ← h.offset]
  exact congrArg (byteLength above + ·) (Text.columnToByte_units [] _)

/-- The lines above the definition stay where they are. -/
lemma Cut.map_above (h : e.Cut above below) :
    (Text.lines above).map (Line.relocated e.lineAfter e.offsetAfter) = Text.lines above := by
  refine (List.map_congr_left fun l hl => ?_).trans (List.map_id _)
  obtain ⟨hindex, hoffset⟩ := Text.lt_of_mem_lines hl
  rw [Line.relocated, lineAfter, offsetAfter, shift_of_lt (h.line ▸ hindex),
    shift_of_lt (h.offset ▸ hoffset)]
  rfl

/-- **The definitions** of both texts are the same, at their new places. -/
lemma findAll_result (e : CommentInsertion) : FunctionDef.findAll e.result =
    (FunctionDef.findAll e.text).map (FunctionDef.relocated e.lineAfter e.offsetAfter) := by
  obtain ⟨above, below, h⟩ := e.exists_cut
  obtain ⟨lines, htexts, hresult⟩ := h.exists_lines_result
  let s := FunctionDef.State.start.run (Text.lines above)
  have hpassed : ∀ x ∈ lines, s.next x = s ∧ s.out x = [] := by
    intro x hx
    have hplain : Header.Plain x.text := e.plain _ (htexts ▸ List.mem_map_of_mem hx)
    exact FunctionDef.State.next_of_head?_eq_none h.looking hplain.head?_eq_none
      hplain.isMarker_eq_false
  calc FunctionDef.findAll e.result
    _ = FunctionDef.State.start.find (Text.lines e.result) := rfl
    _ = FunctionDef.State.start.find
          (Text.lines above ++ (e.linesBelow below).map
            (Line.relocated e.lineAfter e.offsetAfter)) := by
      rw [hresult, FunctionDef.State.find_pass hpassed]
    _ = FunctionDef.State.start.find
      ((Text.lines e.text).map (Line.relocated e.lineAfter e.offsetAfter)) := by
      rw [h.lines_text, List.map_append, h.map_above]
    _ = (FunctionDef.findAll e.text).map (FunctionDef.relocated e.lineAfter e.offsetAfter) :=
      FunctionDef.State.find_relocated _ _ .start _

/-! ### Headers -/

lemma Cut.texts (h : e.Cut above below) :
    (Text.lines e.text).map Line.text = (Text.lines above).map Line.text ++
      (e.linesBelow below).map Line.text ∧
      (Text.lines e.result).map Line.text =
        (Text.lines above).map Line.text ++ e.new ++ (e.linesBelow below).map Line.text := by
  obtain ⟨lines, htexts, hresult⟩ := h.exists_lines_result
  have hkept : Line.text ∘ Line.relocated e.lineAfter e.offsetAfter = Line.text := rfl
  exact ⟨by rw [h.lines_text, List.map_append],
    by rw [hresult, List.map_append, List.map_append, htexts, List.map_map, hkept]⟩

/-- **The header of another definition** is not touched: it does not reach beyond the edited
line. -/
lemma above?_result (hd : d ∈ FunctionDef.findAll e.text) (hne : d ≠ e.target) :
    Header.above? ((Text.lines e.result).map Line.text) (e.lineAfter d.line) =
      Header.above? ((Text.lines e.text).map Line.text) d.line := by
  obtain ⟨above, below, h⟩ := e.exists_cut
  obtain ⟨htext, hresult⟩ := h.texts
  have hother : d.line ≠ e.target.line :=
    fun hline => hne (FunctionDef.eq_of_line_eq hd e.found hline)
  have hlength : ((Text.lines above).map Line.text).length = e.target.line := by
    rw [List.length_map, h.line]
  have hbound : d.line < ((Text.lines e.text).map Line.text).length := by
    obtain ⟨up, l, down, hlines, -, hline, -⟩ := FunctionDef.exists_header_of_mem hd
    simp [hlines, hline]
  rw [htext] at hbound ⊢
  rw [hresult]
  generalize (Text.lines above).map Line.text = A at *
  rcases Nat.lt_or_gt_of_ne hother with hlt | hgt
  · -- above the edited line nothing has changed
    rw [lineAfter, shift_of_lt hlt]
    refine Source.above?_congr (by simp; omega) (by simp; omega) ?_
    have hle : d.line ≤ A.length := by omega
    rw [Header.blockAbove, Header.blockAbove, List.append_assoc, List.take_append_of_le_length hle,
      List.take_append_of_le_length hle]
  · -- below it the comment lines stop at the edited definition
    obtain ⟨l, ls, hcons, hcode⟩ := h.header
    rw [lineAfter, shift_of_le hgt.le]
    rw [hcons] at hbound ⊢
    obtain ⟨k, hk⟩ : ∃ k, d.line = A.length + (k + 1) := ⟨d.line - A.length - 1, by omega⟩
    let upper := l.text :: (ls.map Line.text).take k
    have hsplit : (l :: ls).map Line.text = upper ++ (ls.map Line.text).drop k := by
      rw [List.map_cons, List.cons_append, List.take_append_drop]
    have hstop : ∃ y ∈ upper, Header.isCommentLine y = false := ⟨l.text, List.mem_cons_self, hcode⟩
    have hupper : upper.length = k + 1 := by
      simp only [List.length_append, List.length_map, List.length_cons] at hbound
      simp [upper]
      omega
    have hline : d.line = (A ++ upper).length := by
      rw [List.length_append, hupper, hk]
    have hline' : d.line + e.new.length = (A ++ e.new ++ upper).length := by
      rw [List.length_append, List.length_append, hupper]
      omega
    rw [hsplit, ← List.append_assoc, ← List.append_assoc]
    refine Source.above?_congr (by rw [List.length_append]; omega)
      (by rw [List.length_append]; omega) ?_
    rw [Source.blockAbove_append hstop (A ++ e.new) _ hline',
      Source.blockAbove_append hstop A _ hline]

/-- **The header of the edited definition** goes on with the inserted lines. -/
lemma blockAbove_result (e : CommentInsertion) :
    Header.blockAbove ((Text.lines e.result).map Line.text) (e.target.line + e.new.length) =
      Header.blockAbove ((Text.lines e.text).map Line.text) e.target.line ++ e.new := by
  obtain ⟨above, below, h⟩ := e.exists_cut
  obtain ⟨htext, hresult⟩ := h.texts
  have hlength : e.target.line = ((Text.lines above).map Line.text).length := by
    rw [List.length_map, h.line]
  have hcomments : ∀ line ∈ e.new.reverse, Header.isCommentLine line := fun line hline =>
    (e.plain line (List.mem_reverse.mp hline)).isCommentLine
  rw [Header.blockAbove, Header.blockAbove, htext, hresult, hlength, ← List.length_append,
    List.take_left,
    List.take_left, List.reverse_append, List.takeWhile_append_of_pos hcomments,
    List.reverse_append, List.reverse_reverse]

end CommentInsertion

/-! ### Signatures -/

namespace Signature

/-- The names of the parameters do not depend on the header. -/
lemma keys_params_relocated (lines lines' : List Text) (file : Text) (d : FunctionDef)
    (g f : Nat → Nat) :
    (ofDef lines' file (d.relocated g f)).params.keys = (ofDef lines file d).params.keys := by
  rw [ofDef, ofDef, OrderedMap.keys_ofList, OrderedMap.keys_ofList, List.map_map, List.map_map]
  rfl

/-- A signature after the insertion of comment lines: the same function, in its new place. -/
structure Follows (place : Nat → Nat) (s s' : Signature) : Prop where
  name : s'.name = s.name
  label : s'.label = s.label
  params : s'.params.keys = s.params.keys
  offset : s'.offset = s.offset.map place

lemma follows_ofDef (lines lines' : List Text) (file : Text) (d : FunctionDef) (g f : Nat → Nat) :
    Follows f (ofDef lines file d) (ofDef lines' file (d.relocated g f)) :=
  ⟨rfl, rfl, keys_params_relocated lines lines' file d g f, rfl⟩

end Signature

namespace CommentInsertion

variable {e : CommentInsertion} {d : FunctionDef}

lemma keys_result (e : CommentInsertion) (file : Text) :
    (Signature.ofText e.result file).keys = (Signature.ofText e.text file).keys := by
  have hnames : Signature.definedNames e.result = Signature.definedNames e.text := by
    rw [Signature.definedNames, e.findAll_result, List.map_map]
    rfl
  change (OrderedMap.ofList (Signature.definitions _ file)).keys =
    (OrderedMap.ofList (Signature.definitions _ file)).keys
  rw [OrderedMap.keys_ofList, OrderedMap.keys_ofList, Signature.map_fst_definitions,
    Signature.map_fst_definitions, hnames]

/-- A name is looked up in the same definition of both texts. -/
lemma exists_of_find? {file key : Text} {s : Signature}
    (h : (Signature.ofText e.text file).find? key = some s) :
    ∃ d ∈ FunctionDef.findAll e.text,
      s = Signature.ofDef ((Text.lines e.text).map Line.text) file d ∧
      (Signature.ofText e.result file).find? key = some
        (Signature.ofDef ((Text.lines e.result).map Line.text) file
          (d.relocated e.lineAfter e.offsetAfter)) := by
  rw [Signature.find?_ofText, Signature.last?, Option.map_eq_some_iff] at h
  obtain ⟨d, hd, rfl⟩ := h
  refine ⟨d, List.mem_of_mem_filter (List.mem_of_getLast? hd), rfl, ?_⟩
  have hsame : ((fun d : FunctionDef => Text.lower d.name == key) ∘
        FunctionDef.relocated e.lineAfter e.offsetAfter) =
      fun d => Text.lower d.name == key := rfl
  rw [Signature.find?_ofText, Signature.last?, e.findAll_result, List.filter_map, hsame,
    List.getLast?_map, hd]
  rfl

/-- **The signature of another definition** only moves. -/
lemma ofDef_result (hd : d ∈ FunctionDef.findAll e.text) (hne : d ≠ e.target) (file : Text) :
    Signature.ofDef ((Text.lines e.result).map Line.text) file
      (d.relocated e.lineAfter e.offsetAfter) =
      (Signature.ofDef ((Text.lines e.text).map Line.text) file d).moved e.offsetAfter := by
  have hheader : Signature.headerOf? ((Text.lines e.result).map Line.text)
      (d.relocated e.lineAfter e.offsetAfter) =
      Signature.headerOf? ((Text.lines e.text).map Line.text) d := by
    show Option.filter _ (Header.above? _ (e.lineAfter d.line)) =
      Option.filter _ (Header.above? _ d.line)
    rw [above?_result hd hne]
    rfl
  simp only [Signature.ofDef, hheader]
  rfl

end CommentInsertion

end AutoItServer
