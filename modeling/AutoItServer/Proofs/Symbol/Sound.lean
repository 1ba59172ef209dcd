import AutoItServer.Proofs.Symbol.Extent
import AutoItServer.Proofs.Symbol.Outline
import AutoItServer.Proofs.Text.Case

/-!
What an outline says is true of its text.

* `Outline.Distinct`: no function, no region and no variable of a container is listed twice. A line
  keeps it (`Distinct.step`), since it adds only what is not listed.
* `Outline.containerIn`: the function at an offset. Functions further down start later, so that a
  variable has its container for good (`containerAt_run`).
* `exists_standsFor` (**the origin of symbols**): each symbol of an outline stands for something in
  a code line.
* `Outline.InBounds`, `Outline.Spells`, `Outline.EndsFunction`: the places of symbols, said by parts
  of the text.
* `Outline.symbols_sound`: the symbols of every text are where they say, in the functions they say,
  and no two of them are the same.
-/

namespace AutoItServer

namespace Outline

open AutoItServer.Source (depthAfter hides visibleFrom codeLines)
open AutoItServer.Text (byteLength WholeLines)

variable {options : SymbolOptions} {t : Text} {l : Line} {following : List Line} {s : Symbol}
  {listed : List Symbol}

/-! ### No symbol twice -/

/-- The variables, constants and enumerations among some symbols. -/
def declaredOf (listed : List Symbol) : List Symbol :=
  listed.filter fun s => IsDeclared s.kind

/-- No two functions have the same name, no two variables the same name in the same container, and
no two regions the same name. Functions and variables are compared in lower case. -/
structure Distinct (listed : List Symbol) : Prop where
  functions : ((functionsOf listed).map fun f => Text.lower f.name).Nodup
  declared : ((declaredOf listed).map fun v => (Text.lower v.name, v.container)).Nodup
  regions : ((regionsOf listed).map Symbol.name).Nodup

/-- A further symbol keeps the keys of its kind apart, if its key is new among them. -/
lemma nodup_concat {κ : Type} {kind : Symbol → Bool} {key : Symbol → κ}
    (h : ((listed.filter kind).map key).Nodup)
    (hnew : kind s → ∀ r ∈ listed, kind r → key r ≠ key s) :
    (((listed ++ [s]).filter kind).map key).Nodup := by
  rw [List.filter_append, List.map_append]
  by_cases hs : kind s
  · rw [List.filter_cons_of_pos hs, List.filter_nil, List.map_singleton, List.nodup_append]
    refine ⟨h, List.pairwise_singleton _ _, ?_⟩
    intro k hk k' hk'
    obtain ⟨r, hr, rfl⟩ := List.mem_map.mp hk
    obtain rfl := List.mem_singleton.mp hk'
    exact hnew hs r (List.mem_filter.mp hr).1 (List.mem_filter.mp hr).2
  · rw [List.filter_cons_of_neg hs, List.filter_nil, List.map_nil, List.append_nil]
    exact h

namespace Progress

variable {p : Progress}

lemma ne_of_hasFunction (h : p.hasFunction s.name = false) :
    ∀ f ∈ p.found, f.kind = .function → Text.lower f.name ≠ Text.lower s.name := by
  intro f hf hkind
  rw [hasFunction, List.any_eq_false] at h
  simpa using h f (List.mem_filter.mpr ⟨hf, decide_eq_true hkind⟩)

lemma ne_of_hasRegion (h : p.hasRegion s.name = false) :
    ∀ r ∈ p.found, r.kind = .region → r.name ≠ s.name := by
  intro r hr hkind
  rw [hasRegion, List.any_eq_false] at h
  simpa [hkind] using h r hr

lemma ne_of_hasVariable (h : p.hasVariable s.name s.container = false) :
    ∀ v ∈ p.found, IsDeclared v.kind → (Text.lower v.name, v.container) ≠
      (Text.lower s.name, s.container) := by
  intro v hv hkind heq
  rw [hasVariable, List.any_eq_false] at h
  obtain ⟨hname, hcontainer⟩ := Prod.mk.inj heq
  exact h v hv (by simp [hkind.1, hkind.2, hname, hcontainer])

/-- A function that is not listed yet, -/
lemma distinct_add_function (h : Distinct p.found) (hkind : s.kind = .function)
    (hnew : p.hasFunction s.name = false) : Distinct (p.add s).found where
  functions := nodup_concat h.functions fun _ f hf hf' =>
    ne_of_hasFunction hnew f hf (by simpa using hf')
  declared := nodup_concat h.declared fun hs => by simp [IsDeclared, hkind] at hs
  regions := nodup_concat h.regions fun hs => by simp [hkind] at hs

/-- a region, -/
lemma distinct_add_region (h : Distinct p.found) (hkind : s.kind = .region)
    (hnew : p.hasRegion s.name = false) : Distinct (p.add s).found where
  functions := nodup_concat h.functions fun hs => by simp [hkind] at hs
  declared := nodup_concat h.declared fun hs => by simp [IsDeclared, hkind] at hs
  regions := nodup_concat h.regions fun _ r hr hr' => ne_of_hasRegion hnew r hr (by simpa using hr')

/-- or a variable keeps the symbols distinct. -/
lemma distinct_add_declared (h : Distinct p.found) (hkind : IsDeclared s.kind)
    (hnew : p.hasVariable s.name s.container = false) : Distinct (p.add s).found where
  functions := nodup_concat h.functions fun hs => absurd (by simpa using hs) hkind.1
  declared := nodup_concat h.declared fun _ v hv hv' =>
    ne_of_hasVariable hnew v hv (by simpa using hv')
  regions := nodup_concat h.regions fun hs => absurd (by simpa using hs) hkind.2

lemma distinct_takeFunction (h : Distinct p.found) (t : Text) (l : Line) :
    Distinct (p.takeFunction t l).found := by
  rcases takeFunction_cases p t l with heq | ⟨f, hf, hnew, heq⟩
  · rwa [heq]
  · rw [heq]
    exact distinct_add_function h hf.kind hnew

lemma distinct_foldl_takeVariable {kind : SymbolKind} (hkind : IsDeclared kind)
    (container : Option Text) (offset : Nat) (vs : List (Nat × Text)) (h : Distinct p.found) :
    Distinct (vs.foldl (takeVariable kind container offset) p).found := by
  induction vs generalizing p with
  | nil => exact h
  | cons v vs ih =>
    rw [List.foldl_cons, takeVariable]
    split_ifs with hlisted
    · exact ih h
    · rw [Bool.not_eq_true] at hlisted
      refine ih (distinct_add_declared h ?_ ?_)
      · exact hkind
      · exact hlisted

lemma distinct_takeRest (hp : p.Fit) (h : Distinct p.found) (options : SymbolOptions) (l : Line)
    (following : List Line) : Distinct (p.takeRest options l following).found := by
  rw [takeRest]
  split_ifs
  · rcases takeRegion_cases p l following with heq | ⟨r, hr, hnew, heq⟩
    · rwa [heq]
    · rw [heq]
      exact distinct_add_region h hr.kind hnew
  · exact h
  · exact distinct_foldl_takeVariable (hp.isDeclared l.text) _ _ _ h
  · exact h

/-- **One line** keeps the symbols distinct, -/
lemma distinct_step (hp : p.Fit) (h : Distinct p.found) (options : SymbolOptions)
    (t : Text) (l : Line)
    (following : List Line) : Distinct (p.step options t l following).found := by
  rw [step_eq]
  split_ifs
  · exact h
  · exact h
  · obtain ⟨-, -, -, -, hfit⟩ := exists_takeFunction (p := p.counted l) hp t l
    exact distinct_takeRest hfit (distinct_takeFunction (p := p.counted l) h t l)
      options l following

/-- and so do many. -/
lemma distinct_run (hp : p.Fit) (h : Distinct p.found) (options : SymbolOptions) (t : Text)
    (ls : List Line) :
    Distinct (p.run options t ls).found := by
  induction ls generalizing p with
  | nil => exact h
  | cons l ls ih =>
    obtain ⟨-, -, -, -, hfit⟩ := step_cases hp options t l ls
    exact ih hfit (distinct_step hp h options t l ls)

end Progress

/-! ### Containers -/

/-- Whether the bytes of a symbol hold an offset. -/
def covers (offset : Nat) (f : Symbol) : Bool :=
  f.start ≤ offset && offset < f.stop

/-- The name of the last function among some symbols that covers an offset. -/
def containerIn (listed : List Symbol) (offset : Nat) : Option Text :=
  ((functionsOf listed).filter (covers offset)).getLast?.map Symbol.name

lemma containerIn_eq_none_iff {offset : Nat} :
    containerIn listed offset = none ↔ ∀ f ∈ listed, f.kind = .function →
      covers offset f = false := by
  rw [containerIn, Option.map_eq_none_iff, List.getLast?_eq_none_iff, List.filter_eq_nil_iff]
  constructor
  · intro h f hf hkind
    exact Bool.not_eq_true _ ▸ h f (List.mem_filter.mpr ⟨hf, decide_eq_true hkind⟩)
  · intro h f hf
    rw [h f (List.mem_filter.mp hf).1 (of_decide_eq_true (List.mem_filter.mp hf).2)]
    exact Bool.false_ne_true

namespace Progress

variable {p : Progress}

lemma containerAt_eq (p : Progress) (offset : Nat) :
    p.containerAt offset = containerIn p.found offset := by
  rw [containerAt, containerIn, ← List.head?_filter, List.filter_reverse, List.head?_reverse]
  rfl

/-- **Functions further down** do not cover an offset above them. -/
lemma containerAt_run (hp : p.Fit) (options : SymbolOptions) (t : Text) {ls : List Line}
    {offset : Nat}
    (h : ∀ m ∈ ls, offset < m.offset) : (p.run options t ls).containerAt offset =
      p.containerAt offset := by
  obtain ⟨headers, fs, hsub, hdefines, hfunctions⟩ := functions_run hp options t ls
  have hnone : fs.reverse.find? (fun f => f.start ≤ offset && offset < f.stop) = none := by
    rw [List.find?_eq_none]
    intro f hf
    obtain ⟨m, hm, hmf⟩ := exists_defines_of_mem hdefines (List.mem_reverse.mp hf)
    have hlater := h m ((Source.visibleFrom_sublist _ _).mem (hsub.mem hm))
    have hstart := hmf.start
    simp only [Bool.and_eq_true, decide_eq_true_eq]
    omega
  rw [containerAt, containerAt, hfunctions, List.reverse_append, List.find?_append, hnone,
    Option.none_or]

/-- **The origin of symbols** that lines add: each stands for something in a visible line. -/
lemma standsFor_run (hp : p.Fit) (options : SymbolOptions) (t : Text) {ls : List Line}
    (hls : ls.Pairwise fun l m => l.offset < m.offset) :
    ∀ s ∈ (p.run options t ls).found, s ∈ p.found ∨
      ∃ l following, l ∈ visibleFrom p.depth ls ∧ l :: following <:+ ls ∧
        StandsFor t l following ((p.run options t ls).containerAt l.offset) s := by
  induction ls generalizing p with
  | nil => exact fun s hs => Or.inl hs
  | cons l ls ih =>
    intro s hs
    obtain ⟨hlater, hls⟩ := List.pairwise_cons.mp hls
    obtain ⟨new, hadds, hfound, hdepth, hfit⟩ := step_cases hp options t l ls
    rcases ih hfit hls s hs with hs | ⟨m, following, hm, hsuffix, hstands⟩
    · rw [hfound, List.mem_append] at hs
      refine hs.imp id fun hs => ⟨l, ls, ?_, List.suffix_refl _, ?_⟩
      · rw [visibleFrom, hadds.visible (List.ne_nil_of_mem hs), if_neg (by decide)]
        exact List.mem_cons_self
      · rw [run, containerAt_run hfit options t hlater]
        exact hadds.standsFor s hs
    · refine Or.inr ⟨m, following, ?_, hsuffix.trans (List.suffix_cons l ls), hstands⟩
      rw [hdepth] at hm
      rw [visibleFrom]
      split_ifs
      · exact hm
      · exact List.mem_cons_of_mem l hm

end Progress

/-- **The origin of symbols**: each symbol of an outline stands for something in a code line. -/
lemma exists_standsFor (h : s ∈ symbols options t) :
    ∃ l following, l ∈ codeLines t ∧ (∀ m ∈ following, m ∈ Text.lines t ∧ l.offset < m.offset) ∧
      StandsFor t l following (containerIn (symbols options t) l.offset) s := by
  have hordered : ((Text.lines t).take options.maxLines).Pairwise fun l m =>
      l.offset < m.offset := by
    refine ((Text.pairwise_numberLines 0 0 t).imp fun hlt => ?_).sublist (List.take_sublist _ _)
    exact Nat.lt_of_le_of_lt (Nat.le_add_right _ _) hlt
  rcases Progress.standsFor_run Progress.fit_start options t hordered s h with hs |
    ⟨l, following, hl, hsuffix, hstands⟩
  · cases hs
  · rw [Progress.containerAt_eq] at hstands
    refine ⟨l, following, (visibleFrom_take_sublist _ t).mem hl, fun m hm => ⟨?_, ?_⟩, hstands⟩
    · exact List.mem_of_mem_take (hsuffix.subset (List.mem_cons_of_mem l hm))
    · exact (List.pairwise_cons.mp (hordered.sublist hsuffix.sublist)).1 m hm

/-! ### Places -/

/-- The bytes of a symbol are a part of the text, from one character boundary to another. -/
structure InBounds (t : Text) (s : Symbol) : Prop where
  start_le_stop : s.start ≤ s.stop
  stop_le : s.stop ≤ byteLength t
  start_boundary : (Text.splitAtByte? s.start t).isSome
  stop_boundary : (Text.splitAtByte? s.stop t).isSome

/-- The bytes of a symbol spell its name. -/
def Spells (t : Text) (s : Symbol) : Prop :=
  ∃ before after, t = before ++ (s.name ++ after) ∧ s.start = byteLength before ∧
    s.stop = byteLength (before ++ s.name)

/-- A place behind the word `EndFunc` in any case, with only tabs and spaces before it on its
line. -/
def BehindEndFunc (t : Text) (stop : Nat) : Prop :=
  ∃ above indent word after, t = above ++ (indent ++ (word ++ after)) ∧ WholeLines above ∧
    (∀ c ∈ indent, isIndent c) ∧ Text.asciiLower word = "endfunc".toList ∧ Text.endsWord after ∧
    stop = byteLength (above ++ (indent ++ word))

/-- A line that a symbol stands in. -/
def InLine (l : Line) (s : Symbol) : Prop :=
  l.offset ≤ s.start ∧ s.stop ≤ l.offset + byteLength l.text

instance (l : Line) (s : Symbol) : Decidable (InLine l s) :=
  inferInstanceAs (Decidable (_ ∧ _))

/-- Bytes between two cuts of the text. -/
lemma inBounds_of_cut {x y z w : Text} (hstart : t = x ++ y) (hx : s.start = byteLength x)
    (hstop : t = z ++ w) (hz : s.stop = byteLength z) (hle : s.start ≤ s.stop) : InBounds t s where
  start_le_stop := hle
  stop_le := by
    rw [hz, hstop, Text.byteLength_append]
    exact Nat.le_add_right _ _
  start_boundary := Option.isSome_iff_exists.mpr ⟨_, Text.splitAtByte?_eq_some_iff.mpr ⟨hstart, hx⟩⟩
  stop_boundary := Option.isSome_iff_exists.mpr ⟨_, Text.splitAtByte?_eq_some_iff.mpr ⟨hstop, hz⟩⟩

lemma exists_cut_of_mem_lines (h : l ∈ Text.lines t) :
    ∃ above rest, t = above ++ (l.text ++ rest) ∧ WholeLines above ∧
      l.offset = byteLength above := by
  obtain ⟨above, term, rest, htext, habove, -, -, -, -, -, hoffset⟩ := Text.exists_cut_of_mem h
  exact ⟨above, term ++ rest, htext, habove, by rw [hoffset, Nat.zero_add]⟩

lemma Declares.spells (h : Declares l s) (hl : l ∈ Text.lines t) :
    Spells t s ∧ (∃ word, s.name = '$' :: word ∧ ∀ c ∈ word, isWord c) ∧ InLine l s := by
  obtain ⟨above, rest, htext, -, hoffset⟩ := exists_cut_of_mem_lines hl
  obtain ⟨v, hv, hname, hstart, hstop⟩ := h.place
  obtain ⟨before, word, after, hline, hplace, hword, hchars⟩ := Variable.exists_of_mem_findFrom hv
  rw [Nat.zero_add] at hplace
  have hspell : s.start = byteLength (above ++ before) := by
    rw [hstart, hplace, hoffset, Text.byteLength_append]
  refine ⟨⟨above ++ before, after ++ rest, ?_, hspell, ?_⟩,
    ⟨word, hname.trans hword, hchars⟩, ?_, ?_⟩
  · rw [htext, hline, hname]
    simp
  · rw [hstop, ← hstart, hspell, hname, Text.byteLength_append (above ++ before)]
  · omega
  · rw [hstop, hplace, hline, Text.byteLength_append, Text.byteLength_append]
    omega

/-- A name that is spelled takes room. -/
lemma Spells.start_lt_stop (h : Spells t s) {c : Char} {word : Text} (hname : s.name = c :: word) :
    s.start < s.stop := by
  obtain ⟨before, after, -, hstart, hstop⟩ := h
  have := c.utf8Size_pos
  rw [hstart, hstop, hname, Text.byteLength_append, Text.byteLength_cons]
  omega

lemma Spells.inBounds (h : Spells t s) : InBounds t s := by
  obtain ⟨before, after, htext, hstart, hstop⟩ := h
  refine inBounds_of_cut htext hstart (z := before ++ s.name) (w := after) ?_ hstop ?_
  · rw [htext, List.append_assoc]
  · rw [hstart, hstop, Text.byteLength_append]
    exact Nat.le_add_right _ _

lemma Opens.inBounds (h : Opens l following s) (hl : l ∈ Text.lines t)
    (hfollowing : ∀ m ∈ following, m ∈ Text.lines t ∧ l.offset < m.offset) : InBounds t s := by
  obtain ⟨m, hm, hstop⟩ := h.stop
  obtain ⟨hm, hlater⟩ := hfollowing m hm
  obtain ⟨above, rest, htext, -, hoffset⟩ := exists_cut_of_mem_lines hl
  obtain ⟨above', rest', htext', -, hoffset'⟩ := exists_cut_of_mem_lines hm
  have hstart := h.start
  refine inBounds_of_cut htext (hstart.trans hoffset) (z := above' ++ m.text)
    (w := rest') ?_ ?_ (by omega)
  · rw [htext', List.append_assoc]
  · rw [hstop, hoffset', Text.byteLength_append]

/-- Whole lines may stand above. -/
lemma BehindEndFunc.append {x y : Text} {n : Nat} (h : BehindEndFunc y n) (hx : WholeLines x) :
    BehindEndFunc (x ++ y) (byteLength x + n) := by
  obtain ⟨above, indent, word, after, rfl, habove, hindent, hword, hafter, rfl⟩ := h
  refine ⟨x ++ above, indent, word, after, ?_, hx.append habove, hindent, hword, hafter, ?_⟩
  · rw [List.append_assoc]
  · rw [List.append_assoc x, Text.byteLength_append x]

/-- No character outside ASCII folds to a letter of the word. -/
lemma foldsFromAscii_endfunc : ∀ k ∈ "endfunc".toList, FoldsFromAscii k :=
  Text.foldsFromAscii_of_all (by decide +kernel)

lemma behindEndFunc_of_endFuncHere? {n : Nat} (h : Extent.endFuncHere? t = some n) :
    BehindEndFunc t n := by
  rw [Extent.endFuncHere?] at h
  split at h
  · rename_i after hafter
    split_ifs at h with hends
    obtain ⟨word, hword, hletters⟩ := Text.exists_word_of_afterFolded? foldsFromAscii_endfunc hafter
    have htext : t = t.takeWhile isIndent ++ (word ++ after) := by
      rw [← hword, List.takeWhile_append_dropWhile]
    refine ⟨[], t.takeWhile isIndent, word, after, htext, Text.wholeLines_nil, fun c hc => ?_,
      hletters, hends, ?_⟩
    · exact List.mem_takeWhile_imp hc
    · have hlength := congrArg byteLength htext
      rw [Text.byteLength_append, Text.byteLength_append] at hlength
      rw [List.nil_append, Text.byteLength_append]
      have := Option.some.inj h
      omega
  · cases h

lemma behindEndFunc_of_endFunc? {n : Nat} (h : Extent.endFunc? true t = some n) :
    BehindEndFunc t n := by
  induction t using Text.lines_induction generalizing n with
  | empty => cases h
  | last body hne hbody =>
    rw [Extent.endFunc?_true, Extent.endFunc?_false_of_lf_not_mem hbody, Option.or_none] at h
    exact behindEndFunc_of_endFuncHere? h
  | line body rest hbody ih =>
    rw [Extent.endFunc?_true, Extent.endFunc?_false_lf hbody, Option.or_eq_some_iff] at h
    rcases h with h | ⟨-, h⟩
    · exact behindEndFunc_of_endFuncHere? h
    · obtain ⟨m, hm, rfl⟩ := Option.map_eq_some_iff.mp h
      rw [List.append_cons]
      exact (ih hm).append (Text.wholeLines_lf body)

/-- **A function** ends behind an `EndFunc`. -/
lemma Defines.behindEndFunc {f : Symbol} (h : Defines t l f) (hl : l ∈ Text.lines t) :
    InBounds t f ∧ BehindEndFunc t f.stop := by
  obtain ⟨above, rest, htext, habove, hoffset⟩ := exists_cut_of_mem_lines hl
  obtain ⟨n, hlength, hstop⟩ := h.extent
  rw [htext, hoffset, Text.dropBytes_byteLength, Extent.length?] at hlength
  have hend : BehindEndFunc t f.stop := by
    split at hlength
    · cases hlength
    · rename_i m hm
      split_ifs at hlength
      obtain rfl := Option.some.inj hlength
      rw [htext, hstop, hoffset]
      exact (behindEndFunc_of_endFunc? hm).append habove
  refine ⟨?_, hend⟩
  obtain ⟨above', indent, word, after, htext', -, -, -, -, hstop'⟩ := hend
  have hstart := h.start
  refine inBounds_of_cut htext (hstart.trans hoffset) (z := above' ++ (indent ++ word))
    (w := after) ?_ hstop'
    (by omega)
  rw [htext']
  simp

/-- A symbol that is not empty stands in one line only. -/
lemma offset_eq_of_inLine {m : Line} (hl : l ∈ Text.lines t) (hm : m ∈ Text.lines t)
    (hls : InLine l s) (hms : InLine m s) (hlt : s.start < s.stop) : l.offset = m.offset := by
  obtain ⟨hlstart, hlstop⟩ := hls
  obtain ⟨hmstart, hmstop⟩ := hms
  obtain ⟨above, below, hlines⟩ := List.append_of_mem hl
  have hordered := Text.pairwise_numberLines 0 0 t
  rw [← Text.lines, hlines, List.pairwise_append, List.pairwise_cons] at hordered
  obtain ⟨-, ⟨hbelow, -⟩, habove⟩ := hordered
  rw [hlines, List.mem_append, List.mem_cons] at hm
  rcases hm with hm | rfl | hm
  · have := habove m hm l List.mem_cons_self
    omega
  · rfl
  · have := hbelow m hm
    omega

/-- A symbol of an outline that is a variable, in its line. -/
lemma exists_declares (h : s ∈ symbols options t) (hs : IsDeclared s.kind) :
    ∃ l ∈ codeLines t, Declares l s ∧ s.container = containerIn (symbols options t) l.offset := by
  obtain ⟨l, following, hl, -, hstands⟩ := exists_standsFor h
  cases hstands with
  | function hf => exact absurd hf.kind hs.1
  | region hr => exact absurd hr.kind hs.2
  | declared hv hcontainer => exact ⟨l, hl, hv, hcontainer⟩

/-- Every symbol of an outline is a part of the text. -/
lemma inBounds_symbols (h : s ∈ symbols options t) : InBounds t s := by
  obtain ⟨l, following, hl, hfollowing, hstands⟩ := exists_standsFor h
  have hline := Source.mem_lines_of_mem_codeLines hl
  cases hstands with
  | function hf => exact (hf.behindEndFunc hline).1
  | region hr => exact hr.inBounds hline hfollowing
  | declared hv => exact (hv.spells hline).1.inBounds

/-- The container of a variable is the function at its line. -/
lemma container_eq (h : s ∈ symbols options t) (hs : IsDeclared s.kind) (hl : l ∈ Text.lines t)
    (hls : InLine l s) : s.container = containerIn (symbols options t) l.offset := by
  obtain ⟨m, hm, hdeclares, hcontainer⟩ := exists_declares h hs
  have hline := Source.mem_lines_of_mem_codeLines hm
  obtain ⟨hspells, ⟨word, hname, -⟩, hms⟩ := hdeclares.spells hline
  rw [hcontainer, offset_eq_of_inLine hline hl hms hls (hspells.start_lt_stop hname)]

/-- **Sound outlines.** The bytes of every symbol are a part of the text. A variable stands where
its name is spelled, in a code line, and its container is the last function of the outline that
covers the start of that line, so that it has none exactly if no function does. A function starts
with a code line that is its header, and ends behind an `EndFunc`. No function, no region and no
variable of a container is listed twice. -/
theorem symbols_sound (options : SymbolOptions) (t : Text) :
    (∀ s ∈ symbols options t, InBounds t s) ∧
    (∀ s ∈ symbols options t, IsDeclared s.kind →
      Spells t s ∧ (∃ word, s.name = '$' :: word ∧ ∀ c ∈ word, isWord c) ∧
      (∃ l ∈ codeLines t, InLine l s) ∧
      ∀ l ∈ Text.lines t, InLine l s →
        s.container = containerIn (symbols options t) l.offset ∧
        (s.container = none ↔
          ∀ f ∈ symbols options t, f.kind = .function →
            ¬ (f.start ≤ l.offset ∧ l.offset < f.stop))) ∧
    (∀ f ∈ symbols options t, f.kind = .function →
      (∃ l ∈ codeLines t, f.start = l.offset ∧
        ∃ rest, FunctionDef.head? l.text = some (f.name, rest)) ∧
      BehindEndFunc t f.stop) ∧
    ((functionsOf (symbols options t)).map fun f => Text.lower f.name).Nodup ∧
    ((declaredOf (symbols options t)).map fun v => (Text.lower v.name, v.container)).Nodup ∧
    ((regionsOf (symbols options t)).map Symbol.name).Nodup := by
  have hdistinct : Distinct (symbols options t) :=
    Progress.distinct_run Progress.fit_start ⟨.nil, .nil, .nil⟩ options t _
  refine ⟨fun s hs => inBounds_symbols hs, fun s hs hkind => ?_, fun f hf hkind => ?_,
    hdistinct.functions, hdistinct.declared, hdistinct.regions⟩
  · obtain ⟨m, hm, hdeclares, -⟩ := exists_declares hs hkind
    obtain ⟨hspells, hname, hms⟩ := hdeclares.spells (Source.mem_lines_of_mem_codeLines hm)
    refine ⟨hspells, hname, ⟨m, hm, hms⟩, fun l hl hls => ?_⟩
    have hcontainer := container_eq hs hkind hl hls
    refine ⟨hcontainer, ?_⟩
    rw [hcontainer, containerIn_eq_none_iff]
    simp only [covers, Bool.and_eq_false_iff, decide_eq_false_iff_not, not_and_or]
  · obtain ⟨l, hl, hdefines⟩ := exists_defines hf hkind
    have hline := Source.mem_lines_of_mem_codeLines hl
    exact ⟨⟨l, hl, hdefines.start, hdefines.head⟩, (hdefines.behindEndFunc hline).2⟩

/-- Two functions that end together, a third one with the name of the first, and a variable inside
and outside. -/
def overlapping : Text :=
  "Func A($p)\nVolatile Func b()\n\t$v = 1\n endFUNC ; b\nFunc a()\nEndFunc\n$V = 2".toList

/-- The variable inside belongs to the later function, and the one outside to none. -/
theorem symbols_sound_overlapping :
    (⟨"b".toList, .function, none, 11, 45⟩ : Symbol) ∈ symbols ⟨true, true, 50000⟩ overlapping ∧
      BehindEndFunc overlapping 45 ∧
      (⟨"$v".toList, .variable, some "b".toList, 30, 32⟩ : Symbol) ∈ symbols
        ⟨true, true, 50000⟩ overlapping ∧
      some "b".toList = containerIn (symbols ⟨true, true, 50000⟩ overlapping) 29 ∧
      (⟨"$V".toList, .variable, none, 67, 69⟩ : Symbol) ∈ symbols ⟨true, true, 50000⟩ overlapping ∧
      ∀ f ∈ symbols ⟨true, true, 50000⟩ overlapping, f.kind = .function →
        ¬ (f.start ≤ 67 ∧ 67 < f.stop) := by
  have hfunction : (⟨"b".toList, .function, none, 11, 45⟩ : Symbol) ∈
      symbols ⟨true, true, 50000⟩ overlapping := by decide +kernel
  have hinside : (⟨"$v".toList, .variable, some "b".toList, 30, 32⟩ : Symbol) ∈
      symbols ⟨true, true, 50000⟩ overlapping := by decide +kernel
  have houtside : (⟨"$V".toList, .variable, none, 67, 69⟩ : Symbol) ∈
      symbols ⟨true, true, 50000⟩ overlapping := by decide +kernel
  obtain ⟨-, hdeclared, hfunctions, -⟩ := symbols_sound ⟨true, true, 50000⟩ overlapping
  obtain ⟨-, -, -, hin⟩ := hdeclared _ hinside (by decide)
  obtain ⟨-, -, -, hout⟩ := hdeclared _ houtside (by decide)
  have hline : (⟨2, 29, "\t$v = 1".toList⟩ : Line) ∈ Text.lines overlapping := by decide +kernel
  have hline' : (⟨6, 67, "$V = 2".toList⟩ : Line) ∈ Text.lines overlapping := by decide +kernel
  exact ⟨hfunction, (hfunctions _ hfunction rfl).2, hinside, (hin _ hline (by decide)).1, houtside,
    (hout _ hline' (by decide)).2.mp rfl⟩

end Outline

end AutoItServer
