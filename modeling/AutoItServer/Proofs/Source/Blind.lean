import AutoItServer.Include.Directive
import AutoItServer.Lookup.Variable
import AutoItServer.Signature
import AutoItServer.Proofs.Data.OrderedMap
import AutoItServer.Proofs.Function.Reader

/-!
What stands inside a block comment is not seen.

Another line inside a block changes where the following lines start, and nothing else that is found
in a text. The includes, the code lines, the definitions and their headers are each read by a scan
of its own; each scan passes over hidden lines, and none looks at offsets.

* `findAll_result`: the includes.
* `declaration?_result`, `firstOccurrence?_result`: what is looked up in the code lines.
* `functions_result`: the definitions, where no continued line stands before a block marker.
* `above?_result` (**headers**): the header above a definition does not reach into a block.
* `search_blind`: all of them together.
-/

namespace AutoItServer

namespace Source

open AutoItServer.Text (byteLength rawLines numberLines dropTerminator map_text_numberLines)

variable {e : CommentEdit} {above new below : List Line}

/-! ### Includes -/

/-- Lines without the blanks at their ends open and close the same blocks. -/
lemma depthOver_map {f : Text → Text} (hf : ∀ t, ∃ w, t = f t ++ w ∧ w.all isBlank) (d : Nat)
    (ls : List Text) : depthOver d (ls.map f) = depthOver d ls := by
  induction ls generalizing d with
  | nil => rfl
  | cons l ls ih =>
    obtain ⟨w, hl, hw⟩ := hf l
    have hdepth : depthAfter d (f l) = depthAfter d l := by
      conv_rhs => rw [hl, depthAfter_append hw]
    rw [List.map_cons, depthOver_cons, depthOver_cons, hdepth, ih]

/-- A line where only `LF` and `CRLF` are removed. -/
def strict (raw : Text) : Text :=
  if raw.getLast? = some '\n' then dropTerminator raw else raw

lemma exists_strict (raw : Text) : ∃ w, raw = strict raw ++ w ∧ w.all isBlank := by
  rw [strict]
  split_ifs
  · exact Text.exists_dropTerminator raw
  · exact ⟨[], (List.append_nil raw).symm, rfl⟩

lemma isMarker_strict (raw : Text) : isMarker (strict raw) = isMarker raw := by
  obtain ⟨w, hraw, hw⟩ := exists_strict raw
  conv_rhs => rw [hraw, isMarker_append hw]

lemma directives_append (d n : Nat) (ls ms : List Text) :
    Directive.findFrom d n (ls ++ ms) =
      Directive.findFrom d n ls ++ Directive.findFrom (depthOver d ls) (n + ls.length) ms := by
  induction ls generalizing d n with
  | nil => rfl
  | cons l ls ih =>
    rw [List.cons_append, Directive.findFrom, ih, Directive.findFrom, depthOver_cons,
      List.length_cons, Nat.add_assoc, Nat.add_comm 1]
    split_ifs
    · rfl
    · rw [List.append_assoc]

/-- A hidden line that is no marker has no directive. -/
lemma directives_hidden {d : Nat} (hopen : 0 < d) {x : Text} (hplain : isMarker x = false) (n : Nat)
    (ls : List Text) : Directive.findFrom d n (x :: ls) = Directive.findFrom d (n + 1) ls := by
  rw [Directive.findFrom, depthAfter_of_plain hplain]
  exact if_pos (hides_of_pos hopen x)

/-- **The includes** of both texts are the same. -/
lemma CommentEdit.findAll_result (e : CommentEdit) :
    Directive.findAll e.result = Directive.findAll e.text := by
  obtain ⟨above, term, rest, h⟩ := e.exists_parts
  have hends := h.terminates
  -- the block that is open above the line, counted on the lines as the scan sees them
  have hopen : 0 < depthOver 0 ((rawLines above).map strict) := by
    rw [depthOver_map exists_strict, ← depthOver_map Text.exists_dropTerminator,
      ← map_text_numberLines 0 0]
    exact h.opened
  have hhidden {x : Text} (hx : isMarker x = false) (ls : List Text) :
      Directive.findFrom 0 0 ((rawLines above).map strict ++ strict (x ++ term) :: ls) =
        Directive.findFrom 0 0 ((rawLines above).map strict) ++
          Directive.findFrom (depthOver 0 ((rawLines above).map strict))
            (0 + ((rawLines above).map strict).length + 1) ls := by
    rw [directives_append, directives_hidden hopen]
    rw [isMarker_strict, isMarker_append hends.isBlank, hx]
  have htext : Text.strictLines e.text =
      (rawLines above).map strict ++
        strict (e.line.text ++ term) :: (rawLines rest).map strict := by
    show (rawLines e.text).map strict = _
    rw [h.text, Text.rawLines_append h.whole, Text.rawLines_terminated h.lineEnd hends,
      if_neg h.nonempty, List.map_append, List.map_append]
    rfl
  have hresult : Text.strictLines e.result = (rawLines above).map strict ++
      ((if e.new ++ term = [] then [] else [e.new ++ term]) ++ rawLines rest).map strict := by
    show (rawLines e.result).map strict = _
    rw [h.result, Text.rawLines_append h.whole, Text.rawLines_terminated e.newLine hends,
      List.map_append]
  rw [Directive.findAll, Directive.findAll, htext, hresult, hhidden e.plain]
  split_ifs with hnil
  · -- the last line is gone, and nothing follows it
    rw [(List.append_eq_nil_iff.mp hnil).2] at hends
    rw [hends.rest_eq_nil]
    simp [rawLines, Directive.findFrom]
  · exact hhidden e.newPlain _

/-! ### Code lines -/

namespace CommentEdit

/-- A code line moves as a whole. -/
lemma rigid_of_mem_codeLines {l : Line} (hl : l ∈ codeLines e.text) :
    ∀ k ≤ byteLength l.text, e.move (l.offset + k) = e.move l.offset + k := by
  obtain ⟨above, new, below, h⟩ := e.exists_around
  rw [codeLines, h.text, visibleFrom_drop h.concealed_text] at hl
  obtain ⟨_, _, hlines, -⟩ := mem_visibleFrom hl
  exact h.rigid l (hlines ▸ List.mem_append_right _ List.mem_cons_self)

end CommentEdit

/-- A name is found inside its line. -/
lemma findNameFrom_le {name t : Text} {mode : Variable.Mode} {fresh : Bool} {before : Option Char}
    {offset column : Nat}
    (h : Variable.findNameFrom name mode fresh before offset t = some column) :
    column ≤ offset + byteLength t := by
  induction t generalizing mode fresh before offset with
  | nil =>
    rw [Variable.findNameFrom] at h
    split_ifs at h
    exact Nat.le_of_eq (Option.some.inj h).symm
  | cons c t ih =>
    rw [Variable.findNameFrom] at h
    rw [Text.byteLength_cons]
    split_ifs at h
    · have := Option.some.inj h
      omega
    · have := ih h
      omega

/-- A line that moves as a whole takes the names in it along. -/
lemma find?_moved {f : Nat → Nat} {l : Line} {name : Text} {column : Nat}
    (hrigid : ∀ k ≤ byteLength l.text, f (l.offset + k) = f l.offset + k)
    (h : Variable.find? name l.text = some column) :
    f l.offset + column = f (l.offset + column) := by
  have hle := findNameFrom_le h
  rw [hrigid column (by omega)]

lemma declarationFrom?_moved {f : Nat → Nat} {ls : List Line}
    (hrigid : ∀ l ∈ ls, ∀ k ≤ byteLength l.text, f (l.offset + k) = f l.offset + k) (name : Text)
    (continued : Bool) :
    Lookup.declarationFrom? name continued (ls.map (Line.moved f)) =
      (Lookup.declarationFrom? name continued ls).map f := by
  induction ls generalizing continued with
  | nil => rfl
  | cons l ls ih =>
    simp only [List.map_cons, Lookup.declarationFrom?, Line.moved]
    generalize (continued || Lookup.startsDeclaration l.text || (FunctionDef.head? l.text).isSome) =
      declares
    cases hfound : if declares then Variable.find? name l.text else none with
    | none => exact ih (fun m hm => hrigid m (List.mem_cons_of_mem l hm)) _
    | some column =>
      have hcolumn : Variable.find? name l.text = some column := by
        split_ifs at hfound
        exact hfound
      exact congrArg some (find?_moved (hrigid l List.mem_cons_self) hcolumn)

lemma findSome?_moved {f : Nat → Nat} {ls : List Line}
    (hrigid : ∀ l ∈ ls, ∀ k ≤ byteLength l.text, f (l.offset + k) = f l.offset + k) (name : Text) :
    (ls.map (Line.moved f)).findSome? (fun l => (Variable.find? name l.text).map (l.offset + ·)) =
      (ls.findSome? fun l => (Variable.find? name l.text).map (l.offset + ·)).map f := by
  induction ls with
  | nil => rfl
  | cons l ls ih =>
    simp only [List.map_cons, List.findSome?_cons, Line.moved]
    cases hcolumn : Variable.find? name l.text with
    | none => exact ih fun m hm => hrigid m (List.mem_cons_of_mem l hm)
    | some column => exact congrArg some (find?_moved (hrigid l List.mem_cons_self) hcolumn)

namespace CommentEdit

/-- **The declaration** of a variable is the same, at its new place. -/
lemma declaration?_result (e : CommentEdit) (name : Text) :
    Lookup.declaration? e.result name = (Lookup.declaration? e.text name).map e.move := by
  rw [Lookup.declaration?, Lookup.declaration?, e.codeLines_result]
  exact declarationFrom?_moved (fun l hl => rigid_of_mem_codeLines hl) name false

/-- **The first occurrence** of a variable is the same, at its new place. -/
lemma firstOccurrence?_result (e : CommentEdit) (name : Text) :
    Lookup.firstOccurrence? e.result name = (Lookup.firstOccurrence? e.text name).map e.move := by
  rw [Lookup.firstOccurrence?, Lookup.firstOccurrence?, e.codeLines_result]
  exact findSome?_moved (fun l hl => rigid_of_mem_codeLines hl) name

/-! ### Definitions -/

/-- **The definitions** of both texts are the same, at their new places. -/
lemma functions_result (e : CommentEdit) (horderly : FunctionDef.Orderly (Text.lines e.text)) :
    FunctionDef.findAll e.result = (FunctionDef.findAll e.text).map (FunctionDef.moved e.move) := by
  obtain ⟨above, new, below, h⟩ := e.exists_around
  have habove : FunctionDef.Orderly above := by
    rw [h.text, List.append_assoc] at horderly
    exact horderly.left_of_append
  obtain ⟨hlooking, hopen⟩ := FunctionDef.State.looking_of_orderly habove h.opened
  have htext : FunctionDef.findAll e.text = FunctionDef.State.start.find (above ++ below) := by
    show FunctionDef.State.start.find (Text.lines e.text) = _
    rw [h.text, FunctionDef.State.find_drop hlooking hopen]
    exact fun x hx => List.mem_singleton.mp hx ▸ e.plain
  have hresult : FunctionDef.findAll e.result =
      FunctionDef.State.start.find ((above ++ below).map (Line.moved e.move)) := by
    show FunctionDef.State.start.find (Text.lines e.result) = _
    rw [h.result, FunctionDef.State.find_drop hlooking hopen h.plain, List.map_append, h.map_above]
  rw [htext, hresult, ← FunctionDef.State.find_moved]
  rfl

/-! ### Headers -/

end CommentEdit

/-- A line that closes a block is no comment line. -/
lemma not_isCommentLine_of_isBlockEnd {l : Text} (h : isBlockEnd l) :
    Header.isCommentLine l = false := by
  rw [Header.isCommentLine, beq_eq_false_iff_ne]
  intro hhead
  obtain ⟨rest, hrest⟩ := List.head?_eq_some_iff.mp hhead
  rw [isBlockEnd, hrest] at h
  exact absurd h Bool.false_ne_true

/-- The comment lines above a line do not reach beyond a line of another kind. -/
lemma blockAbove_append {ys : List Text} (hstop : ∃ y ∈ ys, Header.isCommentLine y = false)
    (xs zs : List Text) {n : Nat} (hn : n = (xs ++ ys).length) :
    Header.blockAbove (xs ++ ys ++ zs) n = (ys.reverse.takeWhile Header.isCommentLine).reverse := by
  rw [Header.blockAbove, hn, List.take_left, List.reverse_append, List.takeWhile_append, if_neg]
  intro hlength
  obtain ⟨y, hy, hcomment⟩ := hstop
  have hall : y ∈ ys.reverse.takeWhile Header.isCommentLine := by
    rw [(List.takeWhile_prefix _).eq_of_length hlength]
    exact List.mem_reverse.mpr hy
  rw [List.mem_takeWhile_imp hall] at hcomment
  cases hcomment

/-- The header above a line depends on the comment lines directly above it. -/
lemma above?_congr {ls ms : List Text} {m n : Nat} (hls : m ≤ ls.length) (hms : n ≤ ms.length)
    (h : Header.blockAbove ls m = Header.blockAbove ms n) :
    Header.above? ls m = Header.above? ms n := by
  rw [Header.above?, if_neg (Nat.not_lt.mpr hls), Header.above?, if_neg (Nat.not_lt.mpr hms), h]

namespace CommentEdit

/-- **Headers do not reach into blocks**: above a definition both texts have the same header. -/
lemma above?_result (horderly : FunctionDef.Orderly (Text.lines e.text)) {d : FunctionDef}
    (hd : d ∈ FunctionDef.findAll e.text) :
    Header.above? ((Text.lines e.result).map Line.text) d.line =
      Header.above? ((Text.lines e.text).map Line.text) d.line := by
  obtain ⟨above, new, below, h⟩ := e.exists_around
  -- the definition stands in a line `l` outside of every block
  obtain ⟨up, l, down, hlines, ⟨-, hvisible, -⟩, hplace⟩ :=
    (FunctionDef.State.holds_or_meets_of_mem (s := .start) hd).resolve_left
      (FunctionDef.State.not_holds_of_looking rfl)
  have hup : FunctionDef.Orderly up := (hlines ▸ horderly).left_of_append
  have hclosed : depthOver 0 (up.map Line.text) = 0 := by
    rw [← (FunctionDef.State.settled_run hup).1]
    exact (depthAfter_of_not_hides hvisible).1
  have hline : d.line = up.length := by
    have hindex : d.line = l.index := congrArg (fun p => p.2.1) hplace
    rw [hindex, Text.index_of_numberLines hlines, Nat.zero_add]
  have hcut := h.text
  rw [hlines, List.append_assoc, List.append_eq_append_iff] at hcut
  rcases hcut with ⟨up', rfl, -⟩ | ⟨inner, rfl, hbelow⟩
  · -- the line stands above the edited one
    rw [hline, h.result, hlines]
    refine above?_congr (by simp) (by simp) ?_
    rw [Header.blockAbove, Header.blockAbove]
    congr 3
    simp
  · cases inner with
    | nil =>
      have := h.opened
      rw [List.append_nil] at hclosed
      omega
    | cons x inner =>
      obtain ⟨rfl, rfl⟩ := List.cons.inj hbelow
      -- it stands below the edited line, and the block has been closed in between
      have hnew : new.length = 1 := h.length_new.resolve_right (by simp)
      rw [List.map_append, depthOver_append] at hclosed
      obtain ⟨m, hm, hend⟩ := exists_isBlockEnd h.opened hclosed
      have hstop : ∃ y ∈ inner.map Line.text, Header.isCommentLine y = false := by
        refine ⟨m, (List.mem_cons.mp hm).resolve_left ?_, not_isCommentLine_of_isBlockEnd hend⟩
        rintro rfl
        have := (Bool.or_eq_false_iff.mp e.plain).2
        rw [hend] at this
        cases this
      have htext : (Text.lines e.text).map Line.text = above.map Line.text ++ [e.line.text] ++
          inner.map Line.text ++ (l :: down).map Line.text := by
        rw [hlines]
        simp
      have hresult : (Text.lines e.result).map Line.text =
          above.map Line.text ++ new.map Line.text ++
          inner.map Line.text ++ (l :: down).map Line.text := by
        have htexts : Line.text ∘ Line.moved e.move = Line.text := rfl
        rw [h.result]
        simp [htexts, Line.moved]
      have hlength : d.line =
          (above.map Line.text ++ [e.line.text] ++ inner.map Line.text).length := by
        rw [hline]
        simp
      have hlength' : d.line =
          (above.map Line.text ++ new.map Line.text ++ inner.map Line.text).length := by
        rw [hline]
        simp [hnew]
        omega
      rw [htext, hresult]
      refine above?_congr (by simp [hlength', hnew]) (by simp [hlength]) ?_
      rw [blockAbove_append hstop _ _ hlength', blockAbove_append hstop _ _ hlength]

end CommentEdit

end Source

/-! ### Signatures -/

/-- A signature whose definition is at another offset. -/
def Signature.moved (f : Nat → Nat) (s : Signature) : Signature :=
  { s with offset := s.offset.map f }

namespace Source

namespace CommentEdit

/-- **The signatures** of both texts are the same, with their definitions at their new places. -/
lemma ofText_result (e : CommentEdit) (horderly : FunctionDef.Orderly (Text.lines e.text))
    (file : Text) : Signature.ofText e.result file =
      (Signature.ofText e.text file).mapValues (Signature.moved e.move) := by
  rw [Signature.ofText, Signature.ofText, e.functions_result horderly, ← OrderedMap.ofList_map,
    List.map_map, List.map_map]
  congr 1
  refine List.map_congr_left fun d hd => ?_
  have hheader : Signature.headerOf? ((Text.lines e.result).map Line.text) (d.moved e.move) =
      Signature.headerOf? ((Text.lines e.text).map Line.text) d := by
    show Option.filter _ (Header.above? _ d.line) = Option.filter _ (Header.above? _ d.line)
    rw [above?_result horderly hd]
    rfl
  simp only [Function.comp, Signature.ofDef, hheader]
  rfl

end CommentEdit

/-- **Blindness.** In a text where no continued line stands directly before a block marker, another
line inside a block leaves the includes as they are. The definitions and signatures, and what is
found as the declaration or the first occurrence of any variable, are the same too; only what stands
after the line is moved with the text. -/
theorem search_blind (e : CommentEdit) (horderly : FunctionDef.Orderly (Text.lines e.text))
    (file : Text) :
    Directive.findAll e.result = Directive.findAll e.text ∧
      FunctionDef.findAll e.result = (FunctionDef.findAll e.text).map (FunctionDef.moved e.move) ∧
      Signature.ofText e.result file =
        (Signature.ofText e.text file).mapValues (Signature.moved e.move) ∧
      ∀ name,
        Lookup.declaration? e.result name = (Lookup.declaration? e.text name).map e.move ∧
          Lookup.firstOccurrence? e.result name =
            (Lookup.firstOccurrence? e.text name).map e.move :=
  ⟨e.findAll_result, e.functions_result horderly, e.ofText_result horderly file,
    fun name => ⟨e.declaration?_result name, e.firstOccurrence?_result name⟩⟩

/-- In place of a line inside two blocks, a header whose list goes on. -/
def nestedEdit : CommentEdit where
  text := "#cs\n#cs\nnote\n#ce\n#ce\nLocal $a, _\n$b\nFunc F($b)\nEndFunc".toList
  line := ⟨2, 8, "note".toList⟩
  new := "Func G($b, _".toList
  mem := by decide +kernel
  inside := by decide +kernel
  plain := by decide +kernel
  newPlain := by decide +kernel
  newLine := by decide +kernel

/-- The header in the blocks defines nothing, and declares nothing: the function and the variable
below the blocks are found where they have moved to. -/
theorem search_blind_nested :
    FunctionDef.Orderly (Text.lines nestedEdit.text) ∧
      FunctionDef.findAll nestedEdit.result = [⟨"F".toList, "$b".toList, 7, 44⟩] ∧
      Lookup.declaration? nestedEdit.result "$b".toList = some 41 := by
  have horderly : FunctionDef.Orderly (Text.lines nestedEdit.text) := by decide +kernel
  obtain ⟨-, hfunctions, -, hnames⟩ := search_blind nestedEdit horderly "a.au3".toList
  refine ⟨horderly, ?_, ?_⟩
  · rw [hfunctions]
    decide +kernel
  · rw [(hnames "$b".toList).1]
    decide +kernel

end Source

end AutoItServer
