import AutoItServer.Proofs.Symbol.Options
import AutoItServer.Proofs.Symbol.Sound

/-!
Which declaration a variable has its kind from.

A declaration may go on over several lines. The kind of its first line is held until a line is read
that does not go on. Blank lines, comments, directives and hidden lines are passed over, and neither
hold the kind nor let it go.

* `Outline.scanned`: the lines that are searched for variables.
* `Outline.RunTo`: the longest run of lines that go on, directly before a line. `RunTo.unique`:
  there is one.
* `Outline.Traced` (**the invariant**): what is being declared, and the kinds found so far, by the
  lines searched.
* `kind_of_scanned_run`: the kind of every variable is declared by the first line of the run among
  the lines that are searched. It is the first line of the run in the text, unless lines are passed
  over in the run or above it.
-/

namespace AutoItServer

namespace Outline

open AutoItServer.Source (depthAfter hides visibleFrom continues isSkippable isRegionStart)

variable {options : SymbolOptions} {t : Text} {l : Line} {ls : List Line} {s : Symbol}

/-! ### Runs of continued lines -/

section Runs

variable {above above' run run' : List Line}

/-- The lines before a line: those above, and directly before it the longest run of lines that all
go on. -/
structure RunTo (ls above run : List Line) (l : Line) : Prop where
  parts : ∃ below, ls = above ++ (run ++ l :: below)
  continues : ∀ m ∈ run, Source.continues m.text
  longest : ∀ m, above.getLast? = some m → ¬ Source.continues m.text

/-- The kind that the first line of a run declares, which may be the line that it leads to. -/
def kindOf (run : List Line) (l : Line) : SymbolKind :=
  declaredKind (run.head?.getD l).text

/-- Further lines change nothing in a run. -/
lemma RunTo.append (h : RunTo ls above run l) (more : List Line) :
    RunTo (ls ++ more) above run l := by
  obtain ⟨below, rfl⟩ := h.parts
  exact ⟨⟨below ++ more, by simp⟩, h.continues, h.longest⟩

/-- Two ways to divide lines, where the second parts go on and the first parts do not end so. -/
lemma run_eq_of_append_eq (heq : above ++ run = above' ++ run')
    (hrun : ∀ m ∈ run, continues m.text)
    (hlongest : ∀ m, above'.getLast? = some m → ¬ continues m.text)
    (hle : above.length ≤ above'.length) : run = run' := by
  obtain ⟨between, rfl, rfl⟩ : ∃ between, above' = above ++ between ∧ run = between ++ run' := by
    rcases List.append_eq_append_iff.mp heq with ⟨between, hbetween⟩ | ⟨between, rfl, rfl⟩
    · exact ⟨between, hbetween⟩
    · rw [List.length_append] at hle
      obtain rfl : between = [] := List.length_eq_zero_iff.mp (by omega)
      exact ⟨[], by simp, rfl⟩
  cases hlast : between.getLast? with
  | none => rw [List.getLast?_eq_none_iff.mp hlast, List.nil_append]
  | some m =>
    refine absurd (hrun m ?_) (hlongest m ?_)
    · exact List.mem_append_left _ (List.mem_of_getLast? hlast)
    · rw [List.getLast?_append, hlast, Option.some_or]

/-- **One run** leads to a line. -/
lemma RunTo.unique (hls : ls.Nodup) (h : RunTo ls above run l)
    (h' : RunTo ls above' run' l) : run = run' := by
  obtain ⟨below, hparts⟩ := h.parts
  obtain ⟨below', hparts'⟩ := h'.parts
  have hplace {a r b : List Line} (hls' : ls = a ++ (r ++ l :: b)) :
      ls.idxOf l = (a ++ r).length := by
    rw [hls', ← List.append_assoc] at hls ⊢
    have hnot : l ∉ a ++ r := fun hl => (List.nodup_append.mp hls).2.2 l hl l List.mem_cons_self rfl
    rw [List.idxOf_append_of_notMem hnot, List.idxOf_cons_self, Nat.add_zero]
  have heq : above ++ run = above' ++ run' := by
    rw [← List.append_assoc] at hparts hparts'
    refine (List.append_inj (hparts.symm.trans hparts') ?_).1
    rw [← hplace (by rw [hparts, List.append_assoc]), ← hplace (by rw [hparts', List.append_assoc])]
  rcases Nat.le_total above.length above'.length with hle | hle
  · exact run_eq_of_append_eq heq h.continues h'.longest hle
  · exact (run_eq_of_append_eq heq.symm h'.continues h.longest hle).symm

end Runs

/-! ### Lines that are searched -/

/-- The lines that are searched for variables, when a number of blocks is open at the first one. -/
def scannedFrom (depth : Nat) (ls : List Line) : List Line :=
  (visibleFrom depth ls).filter fun l => !isSkippable l.text

/-- The lines of a text that are searched for variables. -/
def scanned (options : SymbolOptions) (t : Text) : List Line :=
  scannedFrom 0 ((Text.lines t).take options.maxLines)

lemma scannedFrom_cons (depth : Nat) (l : Line) (ls : List Line) :
    scannedFrom depth (l :: ls) =
      scannedFrom depth [l] ++ scannedFrom (depthAfter depth l.text) ls := by
  simp only [scannedFrom, visibleFrom]
  split_ifs
  · rfl
  · rw [List.filter_cons, List.filter_cons]
    split_ifs <;> rfl

lemma scannedFrom_of_isSkippable {depth : Nat} (h : isSkippable l.text) :
    scannedFrom depth [l] = [] := by
  simp only [scannedFrom, visibleFrom]
  split_ifs
  · rfl
  · rw [List.filter_cons_of_neg (by simp [h]), List.filter_nil]

lemma scannedFrom_of_hides {depth : Nat} (h : hides depth l.text) : scannedFrom depth [l] = [] := by
  simp only [scannedFrom, visibleFrom, h, if_true, List.filter_nil]

lemma scannedFrom_of_visible {depth : Nat} (hvisible : hides depth l.text = false)
    (h : isSkippable l.text = false) : scannedFrom depth [l] = [l] := by
  simp [scannedFrom, visibleFrom, hvisible, h]

/-- A line that opens a region is a directive. -/
lemma isSkippable_of_isRegionStart {line : Text} (h : isRegionStart line) : isSkippable line := by
  obtain ⟨c, cs, htrim, hc, -⟩ :=
    Text.exists_cons_of_afterKeyword? (Source.isSome_of_startsWithKeyword h)
  have hmark : c = '#' := eq_of_asciiLower_eq hc (by decide)
  -- the marks of blocks differ from the word in their first letter
  have hother (keyword : Text) : Source.startsWithKeyword ('#' :: 'c' :: keyword)
      (Text.trimStart line) = false :=
    Source.startsWithKeyword_eq_false (by decide) h
  have hplain : (Source.isBlockStart line || Source.isBlockEnd line) = false := by
    rw [Source.isBlockStart, Source.isBlockEnd]
    simp only [Bool.or_eq_false_iff]
    exact ⟨⟨hother _, hother _⟩, hother _, hother _⟩
  rw [isSkippable, htrim]
  simp [hmark, hplain]

/-! ### The invariant -/

/-- What lines that have been searched leave behind: a run that may go on, with the kind that it
declares, and variables with the kinds of their runs. -/
structure Traced (done : List Line) (p : Progress) : Prop where
  running : ∃ above run, done = above ++ run ∧ (∀ m ∈ run, continues m.text) ∧
    (∀ m, above.getLast? = some m → ¬ continues m.text) ∧
    p.running = run.head?.map fun m => declaredKind m.text
  kinds : ∀ s ∈ p.found, IsDeclared s.kind →
    ∃ above run l, RunTo done above run l ∧ Declares l s ∧ s.kind = kindOf run l

namespace Traced

variable {done : List Line} {p q : Progress}

lemma start : Traced [] Progress.start :=
  ⟨⟨[], [], rfl, nofun, nofun, rfl⟩, nofun⟩

/-- Where no variables are added, and none are searched for, nothing changes. -/
lemma of_found (h : Traced done p) (hrunning : q.running = p.running)
    (hfound : ∀ s ∈ q.found, IsDeclared s.kind → s ∈ p.found) : Traced done q := by
  refine ⟨?_, fun s hs hkind => h.kinds s (hfound s hs hkind) hkind⟩
  rw [hrunning]
  exact h.running

lemma takeFunction (h : Traced done p) (t : Text) (l : Line) :
    Traced done (p.takeFunction t l) := by
  rcases Progress.takeFunction_cases p t l with heq | ⟨f, hf, -, heq⟩
  · rwa [heq]
  · rw [heq]
    refine h.of_found rfl fun s hs hkind => ?_
    rcases List.mem_append.mp hs with hs | hs
    · exact hs
    · rw [List.mem_singleton.mp hs] at hkind
      exact absurd hf.kind hkind.1

lemma takeRegion (h : Traced done p) (l : Line) (following : List Line) :
    Traced done (p.takeRegion l following) := by
  rcases Progress.takeRegion_cases p l following with heq | ⟨r, hr, -, heq⟩
  · rwa [heq]
  · rw [heq]
    refine h.of_found rfl fun s hs hkind => ?_
    rcases List.mem_append.mp hs with hs | hs
    · exact hs
    · rw [List.mem_singleton.mp hs] at hkind
      exact absurd hr.kind hkind.2

/-- **The line that is searched** takes the kind of the run that leads to it, and ends the run or
goes on with it. -/
lemma takeVariables (h : Traced done p) (l : Line) : Traced (done ++ [l]) (p.takeVariables l) := by
  obtain ⟨above, run, rfl, hrun, hlongest, hrunning⟩ := h.running
  have hkind : p.running.getD (declaredKind l.text) = kindOf run l := by
    rw [hrunning, kindOf]
    cases run <;> rfl
  have hto : RunTo (above ++ run ++ [l]) above run l := ⟨⟨[], by simp⟩, hrun, hlongest⟩
  obtain ⟨new, hnew, hlisted⟩ := Progress.foldl_takeVariable (p.running.getD (declaredKind l.text))
    (p.containerAt l.offset) l.offset p (Variable.findAll l.text)
  rw [Progress.takeVariables, hlisted]
  refine ⟨?_, fun s hs hdeclared => ?_⟩
  · by_cases hgoes : continues l.text
    · refine ⟨above, run ++ [l], by rw [List.append_assoc], ?_, hlongest, ?_⟩
      · exact List.forall_mem_append.mpr ⟨hrun, List.forall_mem_singleton.mpr hgoes⟩
      · simp only [hgoes, if_true, hkind, kindOf]
        cases run <;> rfl
    · refine ⟨above ++ run ++ [l], [], by rw [List.append_nil], List.forall_mem_nil _,
        fun m hm => ?_, ?_⟩
      · rw [List.getLast?_concat] at hm
        exact Option.some.inj hm ▸ hgoes
      · simp only [hgoes, Bool.false_eq_true, if_false]
        rfl
  · rcases List.mem_append.mp hs with hs | hs
    · obtain ⟨above', run', m, hm, hdeclares, heq⟩ := h.kinds s hs hdeclared
      exact ⟨above', run', m, hm.append [l], hdeclares, heq⟩
    · obtain ⟨v, hv, rfl⟩ := hnew s hs
      exact ⟨above, run, l, hto, ⟨hdeclared, v, hv, rfl, rfl, rfl⟩, hkind⟩

/-- **One line** is searched or passed over, -/
lemma step (h : Traced done p) (hvariables : options.withVariables) (t : Text) (l : Line)
    (following : List Line) :
    Traced (done ++ scannedFrom p.depth [l]) (p.step options t l following) := by
  have hcounted : Traced done (p.counted l) := h.of_found rfl fun s hs _ => hs
  rw [Progress.step_eq]
  split_ifs with hskip hhides
  · rw [scannedFrom_of_isSkippable (Bool.and_eq_true_iff.mp hskip).1, List.append_nil]
    exact h
  · rw [scannedFrom_of_hides hhides, List.append_nil]
    exact hcounted
  · have hfunction := hcounted.takeFunction t l
    rw [Progress.takeRest]
    by_cases hregion : isRegionStart l.text
    · rw [if_pos hregion, scannedFrom_of_isSkippable (isSkippable_of_isRegionStart hregion),
        List.append_nil]
      split_ifs
      · exact hfunction.takeRegion l following
      · exact hfunction
    · rw [if_neg hregion, if_pos hvariables, scannedFrom_of_visible (by simpa using hhides)]
      · exact hfunction.takeVariables l
      · simpa [hregion] using hskip

/-- and so are many. -/
lemma run (h : Traced done p) (hp : p.Fit) (hvariables : options.withVariables) (t : Text)
    (ls : List Line) :
    Traced (done ++ scannedFrom p.depth ls) (p.run options t ls) := by
  induction ls generalizing done p with
  | nil =>
    have hnone : scannedFrom p.depth [] = [] := rfl
    rw [hnone, List.append_nil]
    exact h
  | cons l ls ih =>
    obtain ⟨-, -, -, hdepth, hfit⟩ := Progress.step_cases hp options t l ls
    have hrest := ih (h.step hvariables t l ls) hfit
    rw [hdepth, List.append_assoc, ← scannedFrom_cons] at hrest
    exact hrest

end Traced

/-! ### Kinds -/

/-- The lines that are searched are lines of the text, -/
lemma scanned_sublist (options : SymbolOptions) (t : Text) :
    (scanned options t).Sublist (Text.lines t) :=
  (List.filter_sublist.trans (Source.visibleFrom_sublist _ _)).trans (List.take_sublist _ _)

/-- which are all different. -/
lemma nodup_lines (t : Text) : (Text.lines t).Nodup := by
  refine (Text.pairwise_numberLines 0 0 t).imp fun hlt heq => ?_
  rw [heq] at hlt
  omega

/-- A part of different elements is known by its elements. -/
lemma eq_filter_of_sublist {part : List Line} (h : part.Sublist ls) (hls : ls.Nodup) :
    part = ls.filter (· ∈ part) := by
  induction h with
  | slnil => rfl
  | @cons part ls m hpart ih =>
    obtain ⟨hm, hls⟩ := List.nodup_cons.mp hls
    rw [List.filter_cons_of_neg (by simpa using fun hmem => hm (hpart.subset hmem))]
    exact ih hls
  | @cons_cons part ls m hpart ih =>
    obtain ⟨hm, hls⟩ := List.nodup_cons.mp hls
    rw [List.filter_cons_of_pos (by simp)]
    refine congrArg (m :: ·) ((ih hls).trans (List.filter_congr fun x hx => ?_))
    have hne : x ≠ m := fun heq => hm (heq ▸ hx)
    simp [hne]

/-- A run of the text that is searched as a whole, with the line above it, is a run of the lines
searched. -/
lemma RunTo.of_lines {above run : List Line} (h : RunTo (Text.lines t) above run l)
    (hl : l ∈ scanned options t) (hrun : ∀ m ∈ run, m ∈ scanned options t)
    (habove : ∀ m, above.getLast? = some m → m ∈ scanned options t) :
    RunTo (scanned options t) (above.filter (· ∈ scanned options t)) run l := by
  obtain ⟨below, hparts⟩ := h.parts
  refine ⟨⟨below.filter (· ∈ scanned options t), ?_⟩, h.continues, fun m hm => ?_⟩
  · have hfilter := eq_filter_of_sublist (scanned_sublist options t) (nodup_lines t)
    have hwhole : run.filter (· ∈ scanned options t) = run :=
      List.filter_eq_self.mpr fun m hm => decide_eq_true (hrun m hm)
    rw [hparts, List.filter_append, List.filter_append, hwhole,
        List.filter_cons_of_pos (by simpa using hl)]
      at hfilter
    exact hfilter
  · -- the last line above is searched, and so it is the last one searched above
    cases hlast : above.getLast? with
    | none =>
      rw [List.getLast?_eq_none_iff.mp hlast] at hm
      cases hm
    | some x =>
      obtain ⟨before, rfl⟩ := List.getLast?_eq_some_iff.mp hlast
      rw [List.filter_append, List.filter_cons_of_pos (by simpa using habove x hlast),
        List.filter_nil, List.getLast?_concat] at hm
      exact Option.some.inj hm ▸ h.longest x hlast

/-- The kind of a variable, by the line that it is found in. -/
lemma exists_runTo (hs : s ∈ symbols options t) (hkind : IsDeclared s.kind) :
    ∃ above run l, RunTo (scanned options t) above run l ∧ Declares l s ∧
      s.kind = kindOf run l := by
  have hvariables : options.withVariables := by
    rw [symbols_eq_filter, List.mem_filter, shows_of_isDeclared hkind] at hs
    exact hs.2
  have htraced := Traced.start.run Progress.fit_start hvariables t
    ((Text.lines t).take options.maxLines)
  exact htraced.kinds s hs hkind

/-- A line is known by its offset. -/
lemma eq_of_offset_eq {m : Line} (hl : l ∈ Text.lines t) (hm : m ∈ Text.lines t)
    (h : l.offset = m.offset) :
    l = m := by
  obtain ⟨above, below, hlines⟩ := List.append_of_mem hl
  obtain ⟨above', below', hlines'⟩ := List.append_of_mem hm
  obtain rfl := Text.above_eq_of_offset_eq hlines hlines' h
  exact (List.cons.inj (List.append_cancel_left (hlines.symm.trans hlines'))).1

/-- **The kind of a variable** is declared by the first line of the run that leads to its line,
among the lines that are searched for variables. So it is the first line of the run in the text, if
the lines of that run and the line above it are all searched. -/
theorem kind_of_scanned_run (hs : s ∈ symbols options t) (hkind : IsDeclared s.kind)
    (hl : l ∈ Text.lines t) (hls : InLine l s) :
    (∃ above run, RunTo (scanned options t) above run l ∧ s.kind = kindOf run l) ∧
    ∀ above run, RunTo (Text.lines t) above run l → (∀ m ∈ run, m ∈ scanned options t) →
      (∀ m, above.getLast? = some m → m ∈ scanned options t) → s.kind = kindOf run l := by
  obtain ⟨above, run, m, hrun, hdeclares, heq⟩ := exists_runTo hs hkind
  have hm : m ∈ scanned options t := by
    obtain ⟨below, hparts⟩ := hrun.parts
    rw [hparts]
    simp
  have hmline := (scanned_sublist options t).subset hm
  obtain ⟨hspells, ⟨word, hname, -⟩, hms⟩ := hdeclares.spells hmline
  obtain rfl : m = l :=
    eq_of_offset_eq hmline hl (offset_eq_of_inLine hmline hl hms hls (hspells.start_lt_stop hname))
  refine ⟨⟨above, run, hrun, heq⟩, fun above' run' hrun' hlines habove => ?_⟩
  have hnodup := (nodup_lines t).sublist (scanned_sublist options t)
  rw [heq, hrun.unique hnodup (hrun'.of_lines hm hlines habove)]

/-- A constant whose declaration seems to go on, a blank line, and a plain variable. -/
def dangling : Text :=
  "Const $a = _\n\n$b = 1".toList

/-- The blank line ends the run that leads to the last line, and still the variable there counts as
a constant. -/
theorem kind_carried_over :
    (⟨"$b".toList, .constant, none, 14, 16⟩ : Symbol) ∈ symbols ⟨true, true, 50000⟩ dangling ∧
      InLine ⟨2, 14, "$b = 1".toList⟩ ⟨"$b".toList, .constant, none, 14, 16⟩ ∧
      RunTo (Text.lines dangling) [⟨0, 0, "Const $a = _".toList⟩, ⟨1, 13, []⟩] []
        ⟨2, 14, "$b = 1".toList⟩ ∧
      kindOf [] ⟨2, 14, "$b = 1".toList⟩ = .variable := by
  refine ⟨by decide +kernel, by decide, ⟨⟨[], by decide +kernel⟩, nofun, fun m hm => ?_⟩,
    by decide +kernel⟩
  obtain rfl := Option.some.inj hm
  decide +kernel

/-- Constants that are declared over three lines, below a line that does not go on. -/
def overThreeLines : Text :=
  "$n = 0\nGlobal Const $a = 1, _ ; one\n\t$b = 2, _\n\t$c = 3\n$d = 4".toList

/-- The variable on the third line of the declaration is a constant, as the first line says. -/
theorem kind_of_scanned_run_overThreeLines :
    (⟨"$c".toList, .constant, none, 48, 50⟩ : Symbol) ∈ symbols ⟨true, true, 50000⟩ overThreeLines ∧
      SymbolKind.constant = kindOf [⟨1, 7, "Global Const $a = 1, _ ; one".toList⟩,
        ⟨2, 36, "\t$b = 2, _".toList⟩]
        ⟨3, 47, "\t$c = 3".toList⟩ := by
  have hs : (⟨"$c".toList, .constant, none, 48, 50⟩ : Symbol) ∈ symbols
      ⟨true, true, 50000⟩ overThreeLines := by
    decide +kernel
  refine ⟨hs, (kind_of_scanned_run hs (by decide) (l := ⟨3, 47, "\t$c = 3".toList⟩)
      (by decide +kernel)
    (by decide)).2 [⟨0, 0, "$n = 0".toList⟩] _ ⟨⟨[⟨4, 55, "$d = 4".toList⟩], ?_⟩, ?_, ?_⟩ ?_ ?_⟩
  all_goals decide +kernel

end Outline

end AutoItServer
