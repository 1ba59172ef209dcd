import AutoItServer.Proofs.Symbol.Outline

/-!
What the options of an outline do: they hide symbols, and change none of the others.

An outline looks up what it has found by kind. A function is compared with functions, a region with
regions and a variable with variables, and only functions are containers. So an outline with fewer
symbols finds the same among those that it shows.

* `SymbolOptions.shows`: the symbols that the options let through.
* `Outline.Shadows`: an outline that has found what another one shows. A line keeps it
  (`Shadows.step`).
* `symbols_eq_filter` (**options are projections**): the outline of every text, from the one with
  all symbols.
* `run_append`: without regions, lines are read without looking at the lines that follow them.
* `symbols_projection`: both together, with a prefix for a smaller limit.
-/

namespace AutoItServer

/-- Whether the options let a symbol through. -/
def SymbolOptions.shows (options : SymbolOptions) (s : Symbol) : Bool :=
  (options.withVariables || !decide (Outline.IsDeclared s.kind)) &&
    (options.withRegions || !decide (s.kind = .region))

/-- The options that let every symbol through, with the same limit. -/
def SymbolOptions.everything (options : SymbolOptions) : SymbolOptions :=
  ⟨true, true, options.maxLines⟩

namespace Outline

open AutoItServer.Source (hides)

variable {options : SymbolOptions} {t : Text} {l : Line} {ls ms following : List Line} {s : Symbol}

lemma shows_of_function (h : s.kind = .function) : options.shows s := by
  simp [SymbolOptions.shows, IsDeclared, h]

lemma shows_of_region (h : s.kind = .region) : options.shows s = options.withRegions := by
  simp [SymbolOptions.shows, IsDeclared, h]

lemma shows_of_isDeclared (h : IsDeclared s.kind) : options.shows s = options.withVariables := by
  simp [SymbolOptions.shows, h, h.2]

namespace Progress

/-! ### Two outlines of the same lines -/

/-- An outline that has found what the options show of another one. What is being declared matters
only where variables are shown. -/
structure Shadows (options : SymbolOptions) (p q : Progress) : Prop where
  found : q.found = p.found.filter options.shows
  depth : q.depth = p.depth
  running : options.withVariables → q.running = p.running
  fit : p.Fit

variable {p q : Progress}

lemma shadows_start (options : SymbolOptions) : Shadows options start start :=
  ⟨rfl, rfl, fun _ => rfl, fit_start⟩

namespace Shadows

/-- What is looked for only among shown symbols is found in both outlines or in neither. -/
lemma any_found (h : Shadows options p q) {wanted : Symbol → Bool}
    (hshown : ∀ s, wanted s → options.shows s) : q.found.any wanted = p.found.any wanted := by
  rw [h.found, List.any_filter]
  congr 1
  funext s
  cases hs : wanted s with
  | false => rw [Bool.and_false]
  | true => rw [hshown s hs, Bool.and_true]

lemma functions (h : Shadows options p q) : q.functions = p.functions := by
  rw [Progress.functions, Progress.functions, h.found, List.filter_filter]
  refine List.filter_congr fun s _ => ?_
  by_cases hs : s.kind = .function
  · simp [hs, shows_of_function hs]
  · simp [hs]

lemma hasFunction (h : Shadows options p q) (name : Text) :
    q.hasFunction name = p.hasFunction name := by
  rw [Progress.hasFunction, Progress.hasFunction, h.functions]

lemma containerAt (h : Shadows options p q) (offset : Nat) :
    q.containerAt offset = p.containerAt offset := by
  rw [Progress.containerAt, Progress.containerAt, h.functions]

lemma hasRegion (h : Shadows options p q) (hregions : options.withRegions) (name : Text) :
    q.hasRegion name = p.hasRegion name := by
  refine h.any_found fun s hs => ?_
  rw [Bool.and_eq_true, decide_eq_true_eq] at hs
  rw [shows_of_region hs.1, hregions]

lemma hasVariable (h : Shadows options p q) (hvariables : options.withVariables) (name : Text)
    (container : Option Text) : q.hasVariable name container = p.hasVariable name container := by
  refine h.any_found fun s hs => ?_
  simp only [Bool.and_eq_true, decide_eq_true_eq] at hs
  obtain ⟨⟨⟨hregion, hfunction⟩, -⟩, -⟩ := hs
  rw [shows_of_isDeclared ⟨hfunction, hregion⟩, hvariables]

/-! ### One line -/

/-- A symbol that is shown is added to both outlines, -/
lemma add (h : Shadows options p q) (hs : options.shows s) :
    Shadows options (p.add s) (q.add s) := by
  refine ⟨?_, h.depth, h.running, h.fit⟩
  rw [Progress.add, Progress.add, List.filter_append, h.found, List.filter_cons_of_pos hs,
    List.filter_nil]

/-- and symbols that are not shown are added to the larger one only. -/
lemma append_hidden (h : Shadows options p q) {p' : Progress} {new : List Symbol}
    (hfound : p'.found = p.found ++ new) (hhidden : ∀ s ∈ new, options.shows s = false)
    (hdepth : p'.depth = p.depth) (hrunning : options.withVariables → p'.running = p.running)
    (hfit : p'.Fit) : Shadows options p' q := by
  refine ⟨?_, h.depth.trans hdepth.symm, fun hv => (h.running hv).trans (hrunning hv).symm, hfit⟩
  have hnone : new.filter options.shows = [] :=
    List.filter_eq_nil_iff.mpr fun s hs => by rw [hhidden s hs]; exact Bool.false_ne_true
  rw [hfound, List.filter_append, hnone, List.append_nil, h.found]

lemma counted (h : Shadows options p q) (l : Line) : Shadows options (p.counted l) (q.counted l) :=
  ⟨h.found, congrArg (Source.depthAfter · l.text) h.depth, h.running, h.fit⟩

lemma takeFunction (h : Shadows options p q) (t : Text) (l : Line) :
    Shadows options (p.takeFunction t l) (q.takeFunction t l) := by
  rw [Progress.takeFunction, Progress.takeFunction]
  split
  · exact h
  · rw [h.hasFunction]
    split_ifs
    · exact h
    · split
      · exact h
      · exact h.add (shows_of_function rfl)

/-- A region is added to both outlines if regions are shown. -/
lemma takeRegion (h : Shadows options p q) (l : Line) (following : List Line) :
    Shadows options (p.takeRegion l following)
      (if options.withRegions then q.takeRegion l following else q) := by
  split_ifs with hregions
  · simp only [Progress.takeRegion, h.hasRegion hregions]
    split_ifs
    · exact h
    · split
      · exact h
      · exact h.add (by rw [shows_of_region rfl, hregions])
  · rcases takeRegion_cases p l following with heq | ⟨r, hr, -, heq⟩
    · rw [heq]
      exact h
    · rw [heq]
      have hfound : (p.add r).found = p.found ++ [r] := rfl
      refine h.append_hidden hfound ?_ rfl (fun _ => rfl) h.fit
      refine List.forall_mem_singleton.mpr ?_
      rw [shows_of_region hr.kind]
      simpa using hregions

lemma foldl_takeVariable (h : Shadows options p q) (hvariables : options.withVariables)
    {kind : SymbolKind}
    (hkind : IsDeclared kind) (container : Option Text) (offset : Nat) (vs : List (Nat × Text)) :
    Shadows options (vs.foldl (takeVariable kind container offset) p)
      (vs.foldl (takeVariable kind container offset) q) := by
  induction vs generalizing p q with
  | nil => exact h
  | cons v vs ih =>
    rw [List.foldl_cons, List.foldl_cons, takeVariable, takeVariable, h.hasVariable hvariables]
    split_ifs
    · exact ih h
    · refine ih (h.add ?_)
      rw [shows_of_isDeclared (by exact hkind), hvariables]

/-- Variables are added to both outlines if variables are shown. -/
lemma takeVariables (h : Shadows options p q) (l : Line) :
    Shadows options (p.takeVariables l) (if options.withVariables then
      q.takeVariables l else q) := by
  obtain ⟨new, hnew, hfound, hdepth, hfit⟩ := takeVariables_cases h.fit l
  split_ifs with hvariables
  · have hlisted := h.foldl_takeVariable hvariables (h.fit.isDeclared l.text)
      (p.containerAt l.offset) l.offset
      (Variable.findAll l.text)
    rw [Progress.takeVariables, Progress.takeVariables, h.running hvariables, h.containerAt]
    exact ⟨hlisted.found, hlisted.depth, fun _ => rfl, hfit⟩
  · refine h.append_hidden hfound (fun s hs => ?_) hdepth (fun hv => absurd hv hvariables) hfit
    rw [shows_of_isDeclared (hnew s hs).1.kind]
    simpa using hvariables

lemma takeRest (h : Shadows options p q) (l : Line) (following : List Line) :
    Shadows options (p.takeRest options.everything l following)
      (q.takeRest options l following) := by
  rw [Progress.takeRest, Progress.takeRest]
  by_cases hregion : Source.isRegionStart l.text
  · rw [if_pos hregion, if_pos hregion]
    exact h.takeRegion l following
  · rw [if_neg hregion, if_neg hregion]
    exact h.takeVariables l

/-- **One line** adds to the smaller outline what is shown of what it adds to the larger one, -/
lemma step (h : Shadows options p q) (t : Text) (l : Line) (following : List Line) :
    Shadows options (p.step options.everything t l following) (q.step options t l following) := by
  rw [step_eq, step_eq, h.depth]
  split_ifs
  · exact h
  · exact h.counted l
  · exact ((h.counted l).takeFunction t l).takeRest l following

/-- and so do many. -/
lemma run (h : Shadows options p q) (t : Text) (ls : List Line) :
    Shadows options (p.run options.everything t ls) (q.run options t ls) := by
  induction ls generalizing p q with
  | nil => exact h
  | cons l ls ih => exact ih (h.step t l ls)

end Shadows

/-! ### Fewer lines -/

lemma fit_run (hp : p.Fit) (options : SymbolOptions) (t : Text) (ls : List Line) :
    (p.run options t ls).Fit := by
  induction ls generalizing p with
  | nil => exact hp
  | cons l ls ih =>
    obtain ⟨-, -, -, -, hfit⟩ := step_cases hp options t l ls
    exact ih hfit

/-- Without regions a line is read by itself. -/
lemma step_eq_of_not_withRegions (h : options.withRegions = false) (p : Progress)
    (t : Text) (l : Line)
    (following following' : List Line) : p.step options t l following =
      p.step options t l following' := by
  rw [step_eq, step_eq]
  simp only [takeRest, h, Bool.false_eq_true, if_false]

/-- The limit matters only for which lines are read. -/
lemma run_maxLines (v r : Bool) (n m : Nat) (p : Progress) (t : Text) (ls : List Line) :
    p.run ⟨v, r, n⟩ t ls = p.run ⟨v, r, m⟩ t ls := by
  induction ls generalizing p with
  | nil => rfl
  | cons l ls ih => exact ih _

/-- **Lines in two parts**, without regions. -/
lemma run_append (h : options.withRegions = false) (p : Progress) (t : Text) (ls ms : List Line) :
    p.run options t (ls ++ ms) = (p.run options t ls).run options t ms := by
  induction ls generalizing p with
  | nil => rfl
  | cons l ls ih =>
    rw [List.cons_append, run, run, ih, step_eq_of_not_withRegions h p t l (ls ++ ms) ls]

end Progress

/-- **Options are projections**: an outline is what its options show of the outline with all
symbols. -/
lemma symbols_eq_filter (options : SymbolOptions) (t : Text) :
    symbols options t = (symbols options.everything t).filter options.shows :=
  ((Progress.shadows_start options).run t _).found

/-- The symbols of an outline that are no regions. -/
def withoutRegions (listed : List Symbol) : List Symbol :=
  listed.filter fun s => !decide (s.kind = .region)

/-- An outline without its regions is the one that shows none. -/
lemma withoutRegions_symbols (v r : Bool) (n : Nat) (t : Text) :
    withoutRegions (symbols ⟨v, r, n⟩ t) = symbols ⟨v, false, n⟩ t := by
  rw [symbols_eq_filter ⟨v, r, n⟩, symbols_eq_filter ⟨v, false, n⟩, withoutRegions,
    List.filter_filter]
  refine List.filter_congr fun s _ => ?_
  rw [SymbolOptions.shows, SymbolOptions.shows]
  cases decide (s.kind = .region) <;> simp

/-- Where no regions are shown, a larger limit only adds symbols. -/
lemma symbols_prefix_of_le (v : Bool) {n m : Nat} (h : n ≤ m) (t : Text) :
    symbols ⟨v, false, n⟩ t <+: symbols ⟨v, false, m⟩ t := by
  let options : SymbolOptions := ⟨v, false, m⟩
  let lines := Text.lines t
  have hlines : lines.take m = lines.take n ++ (lines.take m).drop n := by
    conv_lhs => rw [← List.take_append_drop n (lines.take m), List.take_take, Nat.min_eq_left h]
  have hfewer : symbols ⟨v, false, n⟩ t = (Progress.start.run options t (lines.take n)).found :=
    congrArg Progress.found (Progress.run_maxLines v false n m _ t _)
  have hmore : symbols ⟨v, false, m⟩ t =
      ((Progress.start.run options t (lines.take n)).run options t
        ((lines.take m).drop n)).found := by
    rw [← Progress.run_append rfl, ← hlines]
    rfl
  rw [hfewer, hmore]
  exact Progress.found_run (Progress.fit_run Progress.fit_start options t _) options t _

/-- **Options and limits.** Whatever is shown, an outline is the outline with all symbols, without
the variables or without the regions that are not shown. With more lines, the symbols other than
regions stay what they are, where they are, and others may follow them. -/
theorem symbols_projection (t : Text) (v r : Bool) {n m : Nat} (h : n ≤ m) :
    symbols ⟨v, r, n⟩ t = (symbols ⟨true, true, n⟩ t).filter (fun s =>
      (v || !decide (IsDeclared s.kind)) && (r || !decide (s.kind = .region))) ∧
    withoutRegions (symbols ⟨v, r, n⟩ t) <+: withoutRegions (symbols ⟨v, r, m⟩ t) := by
  refine ⟨symbols_eq_filter ⟨v, r, n⟩ t, ?_⟩
  rw [withoutRegions_symbols, withoutRegions_symbols]
  exact symbols_prefix_of_le v h t

/-- A region around a function, a list that goes on over the limit, and the same name inside and
outside. -/
def folded : Text :=
  "#Region R\nFunc F($a)\nConst $b = 1, _\n$c = 2\nEndFunc\n#EndRegion\n$a = 3".toList

/-- Two lines are read. The function ends behind them and the region does not, and with the
variables hidden only the function is left. -/
theorem symbols_projection_folded :
    symbols ⟨true, true, 2⟩ folded =
        [⟨"F".toList, .function, none, 10, 51⟩, ⟨"$a".toList, .variable, some "F".toList, 17, 19⟩] ∧
      symbols ⟨false, true, 2⟩ folded = [⟨"F".toList, .function, none, 10, 51⟩] ∧
      symbols ⟨true, true, 2⟩ folded <+: withoutRegions (symbols ⟨true, true, 7⟩ folded) := by
  obtain ⟨hshown, -⟩ := symbols_projection folded false true (Nat.le_refl 2)
  obtain ⟨-, hbegins⟩ := symbols_projection folded true true (n := 2) (m := 7) (by decide)
  have hfew : symbols ⟨true, true, 2⟩ folded =
      [⟨"F".toList, .function, none, 10, 51⟩,
        ⟨"$a".toList, .variable, some "F".toList, 17, 19⟩] := by
    decide +kernel
  refine ⟨hfew, ?_, ?_⟩
  · rw [hshown, hfew]
    decide
  · rw [hfew] at hbegins ⊢
    exact hbegins

end Outline

end AutoItServer
