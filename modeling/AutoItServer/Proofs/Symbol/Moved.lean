import AutoItServer.Proofs.Symbol.Outline

/-!
An outline when lines are left out or moved.

* `endFrom?_drop`, `run_drop`: lines inside a block that are no markers can be left out.
* `Outline.Carries`: a change of offsets that moves a line as a whole and keeps its place in the
  order.
* `Outline.SameExtent`: the function at an offset has the same extent in two texts, up to the
  change.
* `run_moved` (**two outlines in step**): where the listed functions have the same extents, moved
  lines give moved symbols.
* `SameRegions.run`: moved lines give moved regions, whatever the extents of the functions are.
-/

namespace AutoItServer

/-- A symbol at another place. -/
def Symbol.moved (f : Nat → Nat) (s : Symbol) : Symbol :=
  { s with start := f s.start, stop := f s.stop }

namespace Outline

open AutoItServer.Text (byteLength dropBytes)
open AutoItServer.Source (depthAfter depthOver hides isMarker Concealed)

variable {options : SymbolOptions} {t t' : Text} {l : Line} {ls following : List Line}
  {f : Nat → Nat}

/-! ### Lines that are left out -/

/-- Hidden lines can be left out of the search for the end of a region. -/
lemma endFrom?_drop {d : Nat} {above hidden : List Line}
    (h : Concealed d above hidden) (inner : Nat) (below : List Line) :
    Region.endFrom? inner d (above ++ hidden ++ below) =
      Region.endFrom? inner d (above ++ below) := by
  induction above generalizing inner d with
  | nil =>
    induction hidden with
    | nil => rfl
    | cons x hidden ih =>
      obtain ⟨hx, hopen⟩ := h x List.mem_cons_self
      have hhides : hides d x.text := Source.hides_of_pos hopen x.text
      rw [List.nil_append, List.cons_append, Region.endFrom?, Source.depthAfter_of_plain hx]
      simp only [hhides, if_true]
      exact ih fun y hy => h y (List.mem_cons_of_mem x hy)
  | cons l above ih =>
    have hrest : Concealed (depthAfter d l.text) above hidden := h
    simp only [List.cons_append, Region.endFrom?, ih hrest]

namespace Progress

variable {p : Progress}

/-- A hidden line that is no marker changes nothing. -/
lemma step_hidden (hopen : 0 < p.depth) (hplain : isMarker l.text = false) (following : List Line) :
    p.step options t l following = p := by
  rw [step_eq, counted, Source.depthAfter_of_plain hplain,
    if_pos (Source.hides_of_pos hopen l.text)]
  split_ifs <;> rfl

/-- The lines that follow a line matter for the end of its region only. -/
lemma step_following {following' : List Line}
    (h : hides p.depth l.text = false → Region.end? following = Region.end? following') :
    p.step options t l following = p.step options t l following' := by
  rw [step_eq, step_eq]
  split_ifs with hskip hhides
  · rfl
  · rfl
  · simp only [takeRest, takeRegion, h (by simpa using hhides)]

/-- **Hidden lines can be left out** of an outline. -/
lemma run_drop (hp : p.Fit) {above hidden : List Line} (h : Concealed p.depth above hidden)
    (below : List Line) :
    p.run options t (above ++ hidden ++ below) = p.run options t (above ++ below) := by
  induction above generalizing p with
  | nil =>
    induction hidden with
    | nil => rfl
    | cons x hidden ih =>
      obtain ⟨hx, hopen⟩ := h x List.mem_cons_self
      rw [List.nil_append, List.cons_append, run, step_hidden hopen hx]
      exact ih fun y hy => h y (List.mem_cons_of_mem x hy)
  | cons l above ih =>
    have hrest : Concealed (depthAfter p.depth l.text) above hidden := h
    have hstep : p.step options t l (above ++ hidden ++ below) =
        p.step options t l (above ++ below) := by
      refine step_following fun hvisible => ?_
      -- behind a visible line no block is open, as the search for its region assumes
      rw [(Source.depthAfter_of_not_hides hvisible).2] at hrest
      exact endFrom?_drop hrest 0 below
    obtain ⟨-, -, -, hdepth, hfit⟩ := step_cases hp options t l (above ++ below)
    rw [List.cons_append, List.cons_append, run, hstep]
    exact ih hfit (hdepth ▸ hrest)

end Progress

/-! ### Lines that are moved -/

/-- A change of offsets that moves a line as a whole. What stands after the start of the line, and
nothing else, stands after it afterwards. -/
structure Carries (f : Nat → Nat) (l : Line) : Prop where
  whole : ∀ k ≤ byteLength l.text, f (l.offset + k) = f l.offset + k
  order : ∀ o, l.offset < o ↔ f l.offset < f o

/-- The extents of the functions at an offset of one text and at its place in another. -/
def SameExtent (f : Nat → Nat) (t t' : Text) (o : Nat) : Prop :=
  (Extent.length? (dropBytes (f o) t')).map (f o + ·) =
    (Extent.length? (dropBytes o t)).map fun n => f (o + n)

lemma endFrom?_moved (h : ∀ l ∈ ls, Carries f l) (inner d : Nat) :
    Region.endFrom? inner d (ls.map (Line.moved f)) = (Region.endFrom? inner d ls).map f := by
  induction ls generalizing inner d with
  | nil => rfl
  | cons l ls ih =>
    obtain ⟨hl, hls⟩ := List.forall_mem_cons.mp h
    have hend : f l.offset + byteLength l.text = f (l.offset + byteLength l.text) :=
      (hl.whole _ (Nat.le_refl _)).symm
    simp only [List.map_cons, Region.endFrom?, Line.moved, ih hls, hend]
    split_ifs <;> rfl

/-- A variable stands inside its line. -/
lemma le_of_mem_findFrom {mode : Variable.Mode} {offset : Nat} {line : Text} {v : Nat × Text}
    (h : v ∈ Variable.findFrom mode offset line) :
    v.1 + byteLength v.2 ≤ offset + byteLength line := by
  obtain ⟨before, word, after, hline, hplace, -⟩ := Variable.exists_of_mem_findFrom h
  rw [hline, hplace]
  simp only [Text.byteLength_append]
  omega

namespace Progress

variable {p : Progress}

/-- An outline with its symbols at other places. -/
def moved (f : Nat → Nat) (p : Progress) : Progress :=
  { p with found := p.found.map (Symbol.moved f) }

lemma functions_moved (f : Nat → Nat) (p : Progress) :
    (p.moved f).functions = p.functions.map (Symbol.moved f) :=
  List.filter_map

lemma hasFunction_moved (f : Nat → Nat) (p : Progress) (name : Text) :
    (p.moved f).hasFunction name = p.hasFunction name := by
  rw [hasFunction, functions_moved, List.any_map]
  rfl

lemma hasRegion_moved (f : Nat → Nat) (p : Progress) (name : Text) :
    (p.moved f).hasRegion name = p.hasRegion name :=
  List.any_map

lemma hasVariable_moved (f : Nat → Nat) (p : Progress) (name : Text) (container : Option Text) :
    (p.moved f).hasVariable name container = p.hasVariable name container :=
  List.any_map

lemma add_moved (f : Nat → Nat) (p : Progress) (s : Symbol) :
    (p.add s).moved f = (p.moved f).add (s.moved f) := by
  rw [moved, add, List.map_append]
  rfl

/-- The container of a line moves with the line. -/
lemma containerAt_moved (h : Carries f l) (p : Progress) :
    (p.moved f).containerAt (f l.offset) = p.containerAt l.offset := by
  have hsame (s : Symbol) : (decide (f s.start ≤ f l.offset) && decide (f l.offset < f s.stop)) =
      (decide (s.start ≤ l.offset) && decide (l.offset < s.stop)) := by
    rw [decide_eq_decide.mpr (h.order s.stop).symm,
      decide_eq_decide.mpr (not_lt.symm.trans ((h.order s.start).not.symm.trans not_lt))]
  rw [containerAt, functions_moved, ← List.map_reverse, List.find?_map, Option.map_map, containerAt]
  congr 1
  exact congrArg (List.find? · _) (funext hsame)

/-- Whether a function that starts at an offset is listed. -/
def Lists (p : Progress) (o : Nat) : Prop :=
  ∃ s ∈ p.found, s.kind = .function ∧ s.start = o

lemma Lists.mono {q : Progress} {o : Nat} (h : p.Lists o) (hgrows : p.found <+: q.found) :
    q.Lists o := by
  obtain ⟨s, hs, hstart⟩ := h
  exact ⟨s, hgrows.subset hs, hstart⟩

lemma lists_add {s : Symbol} (h : s.kind = .function) : (p.add s).Lists s.start :=
  ⟨s, List.mem_append_right _ List.mem_cons_self, h, rfl⟩

/-- The function of a line, where both texts give it the same extent. -/
lemma takeFunction_moved
    (h : (p.takeFunction t l).Lists l.offset ∨
      ((p.moved f).takeFunction t' (l.moved f)).Lists (f l.offset) →
      SameExtent f t t' l.offset) :
    (p.moved f).takeFunction t' (l.moved f) = (p.takeFunction t l).moved f := by
  simp only [takeFunction, hasFunction_moved, Line.moved] at h ⊢
  rcases hhead : FunctionDef.head? l.text with - | ⟨name, rest⟩
  · rfl
  · rw [hhead] at h
    dsimp only at h ⊢
    by_cases hlisted : p.hasFunction name = true
    · rw [if_pos hlisted, if_pos hlisted]
    · rw [if_neg hlisted, if_neg hlisted] at h ⊢
      -- if one of the texts has an end for the function, the other one has it too
      cases hn : Extent.length? (dropBytes l.offset t) with
      | some n =>
        let s : Symbol := ⟨name, .function, none, l.offset, l.offset + n⟩
        have hsame := h (Or.inl (by rw [hn]; exact lists_add (s := s) rfl))
        rw [SameExtent, hn, Option.map_some] at hsame
        obtain ⟨n', hn', hstop⟩ := Option.map_eq_some_iff.mp hsame
        rw [hn']
        dsimp only
        rw [add_moved, hstop]
        rfl
      | none =>
        cases hn' : Extent.length? (dropBytes (f l.offset) t') with
        | none => rfl
        | some n' =>
          let s : Symbol := ⟨name, .function, none, f l.offset, f l.offset + n'⟩
          have hsame := h (Or.inr (by rw [hn']; exact lists_add (s := s) rfl))
          rw [SameExtent, hn, hn'] at hsame
          cases hsame

lemma takeRegion_moved (h : ∀ m ∈ following, Carries f m) (p : Progress) (l : Line) :
    (p.moved f).takeRegion (l.moved f) (following.map (Line.moved f)) =
      (p.takeRegion l following).moved f := by
  simp only [takeRegion, hasRegion_moved, Line.moved, Region.end?]
  rw [endFrom?_moved h]
  split_ifs
  · rfl
  · cases Region.endFrom? 0 0 following with
    | none => rfl
    | some stop => exact (add_moved f p ⟨Region.name l.text, .region, none, l.offset, stop⟩).symm

/-- The variables of a line keep their distance from its start. -/
lemma foldl_takeVariable_moved (h : Carries f l) (kind : SymbolKind) (container : Option Text)
    (vs : List (Nat × Text)) (hvs : ∀ v ∈ vs, v.1 + byteLength v.2 ≤ byteLength l.text)
    (p : Progress) :
    vs.foldl (takeVariable kind container (f l.offset)) (p.moved f) =
      (vs.foldl (takeVariable kind container l.offset) p).moved f := by
  induction vs generalizing p with
  | nil => rfl
  | cons v vs ih =>
    obtain ⟨hv, hvs⟩ := List.forall_mem_cons.mp hvs
    have hstart : f l.offset + v.1 = f (l.offset + v.1) := (h.whole _ (by omega)).symm
    have hstop : f l.offset + v.1 + byteLength v.2 = f (l.offset + v.1 + byteLength v.2) := by
      rw [Nat.add_assoc, Nat.add_assoc, h.whole _ hv]
    have hstep : takeVariable kind container (f l.offset) (p.moved f) v =
        (takeVariable kind container l.offset p v).moved f := by
      rw [takeVariable, takeVariable, hasVariable_moved]
      split_ifs
      · rfl
      · rw [add_moved, hstop, hstart]
        rfl
    rw [List.foldl_cons, List.foldl_cons, hstep, ih hvs]

lemma takeVariables_moved (h : Carries f l) (p : Progress) :
    (p.moved f).takeVariables (l.moved f) = (p.takeVariables l).moved f := by
  have hvs : ∀ v ∈ Variable.findAll l.text, v.1 + byteLength v.2 ≤ byteLength l.text := by
    intro v hv
    have := le_of_mem_findFrom hv
    omega
  have hlisted := foldl_takeVariable_moved h (p.running.getD (declaredKind l.text))
    (p.containerAt l.offset)
    (Variable.findAll l.text) hvs p
  rw [← containerAt_moved h] at hlisted
  simp only [takeVariables, Line.moved]
  rw [show (p.moved f).running = p.running from rfl, hlisted, containerAt_moved h]
  rfl

lemma takeRest_moved (hl : Carries f l) (hfollowing : ∀ m ∈ following, Carries f m) (p : Progress) :
    (p.moved f).takeRest options (l.moved f) (following.map (Line.moved f)) =
      (p.takeRest options l following).moved f := by
  have htext : (l.moved f).text = l.text := rfl
  rw [takeRest, takeRest, takeRegion_moved hfollowing, takeVariables_moved hl, htext]
  split_ifs <;> rfl

/-- The rest of a line adds to what its function has added. -/
lemma prefix_takeRest (hp : p.Fit) :
    (p.takeFunction t l).found <+: ((p.takeFunction t l).takeRest options l following).found := by
  obtain ⟨-, -, -, -, hfit⟩ := exists_takeFunction hp t l
  obtain ⟨new, -, -, hfound, -⟩ := takeRest_cases hfit options t l following
  exact ⟨new, hfound.symm⟩

/-- One line, in two texts. -/
lemma step_moved (hp : p.Fit) (hl : Carries f l) (hfollowing : ∀ m ∈ following, Carries f m)
    (h : (p.step options t l following).Lists l.offset ∨
        ((p.moved f).step options t' (l.moved f) (following.map (Line.moved f))).Lists
          (f l.offset) →
      SameExtent f t t' l.offset) :
    (p.moved f).step options t' (l.moved f) (following.map (Line.moved f)) =
      (p.step options t l following).moved f := by
  have htext : (l.moved f).text = l.text := rfl
  rw [step_eq, step_eq, htext] at h ⊢
  by_cases hskip : (Source.isSkippable l.text && !Source.isRegionStart l.text) = true
  · rw [if_pos hskip, if_pos hskip]
  · rw [if_neg hskip, if_neg hskip] at h ⊢
    have hdepth : (p.moved f).depth = p.depth := rfl
    rw [hdepth] at h ⊢
    by_cases hhides : hides p.depth l.text = true
    · rw [if_pos hhides, if_pos hhides]
      rfl
    · rw [if_neg hhides, if_neg hhides] at h ⊢
      have hfunction : ((p.moved f).counted (l.moved f)).takeFunction t' (l.moved f) =
          ((p.counted l).takeFunction t l).moved f := by
        refine takeFunction_moved (p := p.counted l) fun hlists => h (hlists.imp ?_ ?_)
        · exact fun h => h.mono (prefix_takeRest (p := p.counted l) hp)
        · exact fun h => h.mono (prefix_takeRest (p := (p.counted l).moved f) hp)
      rw [hfunction]
      exact takeRest_moved hl hfollowing _

/-- **Two outlines in step.** Where the functions that one of the two outlines lists have the same
extent in both texts, moved lines give moved symbols. -/
lemma run_moved (hp : p.Fit) (hlines : ∀ l ∈ ls, Carries f l)
    (h : ∀ l ∈ ls, (p.run options t ls).Lists l.offset ∨
        ((p.moved f).run options t' (ls.map (Line.moved f))).Lists (f l.offset) →
      SameExtent f t t' l.offset) :
    (p.moved f).run options t' (ls.map (Line.moved f)) = (p.run options t ls).moved f := by
  induction ls generalizing p with
  | nil => rfl
  | cons l ls ih =>
    obtain ⟨hl, hls⟩ := List.forall_mem_cons.mp hlines
    obtain ⟨hhere, hrest⟩ := List.forall_mem_cons.mp h
    obtain ⟨-, -, -, -, hfit⟩ := step_cases hp options t l ls
    have hstep : (p.moved f).step options t' (l.moved f) (ls.map (Line.moved f)) =
        (p.step options t l ls).moved f := by
      refine step_moved hp hl hls fun hlists => hhere (hlists.imp ?_ ?_)
      · exact fun h => h.mono (found_run hfit options t ls)
      · intro h
        obtain ⟨-, -, -, -, hfit'⟩ :=
          step_cases (p := p.moved f) hp options t' (l.moved f) (ls.map (Line.moved f))
        exact h.mono (found_run hfit' options t' _)
    rw [List.map_cons, run, run, hstep]
    rw [List.map_cons, run, run, hstep] at hrest
    exact ih hfit hls hrest

/-! ### Regions -/

/-- Two outlines with the same regions, up to their places, and with the same blocks open. -/
structure SameRegions (f : Nat → Nat) (p q : Progress) : Prop where
  depth : q.depth = p.depth
  regions : regionsOf q.found = (regionsOf p.found).map (Symbol.moved f)
  fit : p.Fit
  fit' : q.Fit

variable {q : Progress}

lemma hasRegion_eq (p : Progress) (name : Text) :
    p.hasRegion name = (regionsOf p.found).any fun s => s.name == name := by
  rw [hasRegion, regionsOf, List.any_filter]

/-- A region is listed in both outlines or in neither. -/
lemma SameRegions.takeRegion (h : SameRegions f p q) (hfollowing : ∀ m ∈ following, Carries f m) :
    SameRegions f (p.takeRegion l following)
      (q.takeRegion (l.moved f) (following.map (Line.moved f))) := by
  have hlisted (name : Text) : q.hasRegion name = p.hasRegion name := by
    rw [hasRegion_eq, hasRegion_eq, h.regions, List.any_map]
    rfl
  simp only [Progress.takeRegion, hlisted, Line.moved, Region.end?]
  rw [endFrom?_moved hfollowing]
  split_ifs
  · exact h
  · cases Region.endFrom? 0 0 following with
    | none => exact h
    | some stop =>
      refine ⟨h.depth, ?_, h.fit, h.fit'⟩
      simp only [Option.map_some, add, regionsOf, List.filter_append, List.map_append]
      rw [← regionsOf, ← regionsOf, h.regions]
      rfl

/-- Symbols that are no regions make no difference. -/
lemma SameRegions.append (h : SameRegions f p q) {p' q' : Progress} {new new' : List Symbol}
    (hp : p'.found = p.found ++ new) (hq : q'.found = q.found ++ new')
    (hnew : ∀ s ∈ new, s.kind ≠ .region) (hnew' : ∀ s ∈ new', s.kind ≠ .region)
    (hdepth : q'.depth = p'.depth) (hfit : p'.Fit) (hfit' : q'.Fit) : SameRegions f p' q' := by
  have hnone {ss : List Symbol} (hss : ∀ s ∈ ss, s.kind ≠ .region) : regionsOf ss = [] :=
    List.filter_eq_nil_iff.mpr fun s hs => by simpa using hss s hs
  refine ⟨hdepth, ?_, hfit, hfit'⟩
  rw [hp, hq, regionsOf, regionsOf, List.filter_append, List.filter_append,
    ← regionsOf, ← regionsOf,
    ← regionsOf, ← regionsOf, hnone hnew, hnone hnew', List.append_nil, List.append_nil, h.regions]

lemma SameRegions.takeFunction (h : SameRegions f p q) (t t' : Text) (l l' : Line) :
    SameRegions f (p.takeFunction t l) (q.takeFunction t' l') := by
  obtain ⟨new, hnew, hfound, hdepth, hfit⟩ := exists_takeFunction h.fit t l
  obtain ⟨new', hnew', hfound', hdepth', hfit'⟩ := exists_takeFunction h.fit' t' l'
  refine h.append hfound hfound' (fun s hs => ?_) (fun s hs => ?_) ?_ hfit hfit'
  · rw [hnew s hs]
    decide
  · rw [hnew' s hs]
    decide
  · rw [hdepth, hdepth', h.depth]

lemma SameRegions.takeVariables (h : SameRegions f p q) (l' : Line) :
    SameRegions f (p.takeVariables l) (q.takeVariables l') := by
  obtain ⟨new, hnew, hfound, hdepth, hfit⟩ := takeVariables_cases h.fit l
  obtain ⟨new', hnew', hfound', hdepth', hfit'⟩ := takeVariables_cases h.fit' l'
  refine h.append hfound hfound' (fun s hs => (hnew s hs).1.kind.2)
    (fun s hs => (hnew' s hs).1.kind.2) ?_
    hfit hfit'
  rw [hdepth, hdepth', h.depth]

/-- One line adds the same region to both outlines. -/
lemma SameRegions.step (h : SameRegions f p q) (hfollowing : ∀ m ∈ following, Carries f m) :
    SameRegions f (p.step options t l following)
      (q.step options t' (l.moved f) (following.map (Line.moved f))) := by
  have htext : (l.moved f).text = l.text := rfl
  have hcounted : SameRegions f (p.counted l) (q.counted (l.moved f)) :=
    ⟨by rw [counted, counted, h.depth, htext], h.regions, h.fit, h.fit'⟩
  rw [step_eq, step_eq, htext, h.depth]
  split_ifs
  · exact h
  · exact hcounted
  · have hfunction := hcounted.takeFunction t t' l (l.moved f)
    rw [takeRest, takeRest, htext]
    split_ifs
    · exact hfunction.takeRegion hfollowing
    · exact hfunction
    · exact hfunction.takeVariables _
    · exact hfunction

/-- **The regions** of an outline do not depend on the extents of functions. -/
lemma SameRegions.run (h : SameRegions f p q) (hlines : ∀ l ∈ ls, Carries f l) :
    SameRegions f (p.run options t ls) (q.run options t' (ls.map (Line.moved f))) := by
  induction ls generalizing p q with
  | nil => exact h
  | cons l ls ih =>
    obtain ⟨-, hls⟩ := List.forall_mem_cons.mp hlines
    exact ih (h.step hls) hls

end Progress

end Outline

end AutoItServer
