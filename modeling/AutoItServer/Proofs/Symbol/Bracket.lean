import AutoItServer.Proofs.Symbol.Sound
import Mathlib.Combinatorics.Enumerative.DyckWord

/-!
Regions match like brackets.

Among lines outside block comments, a `#Region` line is an opening bracket and an `#EndRegion` line
a closing one. The end of a region is looked for from its first line on, with a count of the regions
opened on the way. The count never asks what stands above the line, so it has to be shown to agree
with the matching of all brackets.

* `Region.brackets`: lines read as brackets.
* `Region.Matches`: an opening line and the closing line that matches it. The brackets between them
  are a Dyck word.
* `endFrom?_eq_some_iff` (**the search for the end**): the count stops at the first closing line
  that is one too many, so it finds the end of a region exactly where there is a matching line
  (`matches_cons_iff`).
* `Matches.before_or_inside`: of two matching pairs one lies before the other or inside it.
* `regions_run`, `exists_region_run`: each region of an outline stands for a matching pair, and each
  matching pair with a name has a region of that name.
* `Outline.regions_matched`: all of this for the outline of a text.
-/

namespace AutoItServer

namespace Region

open AutoItServer.Source (isRegionStart isRegionEnd visibleFrom)
open AutoItServer.Text (byteLength)

variable {l o c o' c' : Line} {lines : List Line}

/-! ### Brackets -/

/-- The bracket that a line is, if it is one. -/
def bracket? (l : Line) : Option DyckStep :=
  if isRegionStart l.text then some .U
  else if isRegionEnd l.text then some .D
  else none

/-- Lines read as brackets. -/
def brackets (lines : List Line) : List DyckStep :=
  lines.filterMap bracket?

/-- Brackets that close `inner` brackets opened before them, and every bracket that they open. -/
structure Closes (inner : Nat) (w : List DyckStep) : Prop where
  count : w.count .D = w.count .U + inner
  take : ∀ i, (w.take i).count .D ≤ (w.take i).count .U + inner

lemma closes_nil_iff {inner : Nat} : Closes inner [] ↔ inner = 0 :=
  ⟨fun h => by simpa using h.count.symm, fun h => ⟨by simp [h], by simp⟩⟩

/-- One more bracket is open behind an opening one, -/
lemma closes_open_iff {inner : Nat} {w : List DyckStep} :
    Closes inner (.U :: w) ↔ Closes (inner + 1) w := by
  constructor
  · rintro ⟨hcount, htake⟩
    refine ⟨by simp at hcount; omega, fun i => ?_⟩
    have := htake (i + 1)
    simp at this
    omega
  · rintro ⟨hcount, htake⟩
    refine ⟨by simp; omega, fun i => ?_⟩
    cases i with
    | zero => simp
    | succ i =>
      have := htake i
      simp
      omega

/-- and one fewer behind a closing one. -/
lemma closes_close_iff {inner : Nat} {w : List DyckStep} :
    Closes inner (.D :: w) ↔ inner ≠ 0 ∧ Closes (inner - 1) w := by
  constructor
  · rintro ⟨hcount, htake⟩
    have hopen := htake 1
    simp at hopen hcount
    refine ⟨by omega, by omega, fun i => ?_⟩
    have := htake (i + 1)
    simp at this
    omega
  · rintro ⟨hopen, hcount, htake⟩
    refine ⟨by simp; omega, fun i => ?_⟩
    cases i with
    | zero => simp
    | succ i =>
      have := htake i
      simp
      omega

/-- Brackets that close none but their own are a Dyck word. -/
lemma closes_zero_iff {w : List DyckStep} : Closes 0 w ↔ ∃ word : DyckWord, word.toList = w := by
  constructor
  · rintro ⟨hcount, htake⟩
    exact ⟨⟨w, hcount.symm, htake⟩, rfl⟩
  · rintro ⟨word, rfl⟩
    exact ⟨word.count_U_eq_count_D.symm, word.count_D_le_count_U⟩

/-- A `#Region` line and the `#EndRegion` line that matches it: between them, brackets are
nested. -/
def Matches (lines : List Line) (o c : Line) : Prop :=
  isRegionStart o.text ∧ isRegionEnd c.text ∧
    ∃ above inner below, lines = above ++ o :: (inner ++ c :: below) ∧
      ∃ word : DyckWord, word.toList = brackets inner

/-! ### The search for the end -/

/-- No line opens a region and closes one. -/
lemma isRegionStart_of_isRegionEnd {line : Text} (h : isRegionEnd line) :
    isRegionStart line = false :=
  Source.startsWithKeyword_eq_false (by decide) h

lemma bracket?_eq_open_iff : bracket? l = some .U ↔ isRegionStart l.text := by
  rw [bracket?]
  split_ifs <;> simp_all

lemma bracket?_eq_close_iff : bracket? l = some .D ↔ isRegionEnd l.text := by
  rw [bracket?]
  split_ifs with hstart hend
  · refine iff_of_false (by simp) fun hend => ?_
    rw [isRegionStart_of_isRegionEnd hend] at hstart
    cases hstart
  · exact iff_of_true rfl hend
  · exact iff_of_false (by simp) hend

/-- Lines up to a closing line, which is one too many when `inner` regions are open before them. -/
def ClosedBy (inner : Nat) (lines : List Line) (c : Line) : Prop :=
  isRegionEnd c.text ∧ ∃ within below, lines = within ++ c :: below ∧ Closes inner (brackets within)

/-- Either the first line closes the region, or a later one does. -/
lemma closedBy_cons_iff {inner : Nat} :
    ClosedBy inner (l :: lines) c ↔
      (isRegionEnd l.text ∧ inner = 0 ∧ c = l) ∨
      isRegionEnd c.text ∧ ∃ within below, lines = within ++ c :: below ∧
        Closes inner (brackets (l :: within)) := by
  constructor
  · rintro ⟨hend, within, below, hlines, hcloses⟩
    cases within with
    | nil =>
      obtain ⟨rfl, -⟩ := List.cons.inj hlines
      exact Or.inl ⟨hend, closes_nil_iff.mp hcloses, rfl⟩
    | cons m within =>
      obtain ⟨rfl, hrest⟩ := List.cons.inj hlines
      exact Or.inr ⟨hend, within, below, hrest, hcloses⟩
  · rintro (⟨hend, rfl, rfl⟩ | ⟨hend, within, below, rfl, hcloses⟩)
    · exact ⟨hend, [], lines, rfl, closes_nil_iff.mpr rfl⟩
    · exact ⟨hend, l :: within, below, rfl, hcloses⟩

lemma closedBy_of_open {inner : Nat} (h : isRegionStart l.text) :
    ClosedBy inner (l :: lines) c ↔ ClosedBy (inner + 1) lines c := by
  have hbracket := bracket?_eq_open_iff.mpr h
  rw [closedBy_cons_iff, ClosedBy]
  simp only [brackets, List.filterMap_cons, hbracket, closes_open_iff]
  refine or_iff_right fun ⟨hend, _⟩ => ?_
  rw [isRegionStart_of_isRegionEnd hend] at h
  cases h

lemma closedBy_of_close {inner : Nat} (h : isRegionEnd l.text) :
    ClosedBy inner (l :: lines) c ↔
      (inner = 0 ∧ c = l) ∨ (inner ≠ 0 ∧ ClosedBy (inner - 1) lines c) := by
  have hbracket := bracket?_eq_close_iff.mpr h
  rw [closedBy_cons_iff, ClosedBy]
  simp only [brackets, List.filterMap_cons, hbracket, closes_close_iff, h, true_and]
  refine or_congr Iff.rfl ?_
  tauto

lemma closedBy_of_plain {inner : Nat} (h : bracket? l = none) :
    ClosedBy inner (l :: lines) c ↔ ClosedBy inner lines c := by
  rw [closedBy_cons_iff, ClosedBy]
  simp only [brackets, List.filterMap_cons, h]
  refine or_iff_right fun ⟨hend, _⟩ => ?_
  rw [bracket?_eq_close_iff.mpr hend] at h
  cases h

/-- **The search for the end** stops at the end of the visible line that closes the region. -/
lemma endFrom?_eq_some_iff {inner depth stop : Nat} {ls : List Line} :
    endFrom? inner depth ls = some stop ↔
      ∃ c, ClosedBy inner (visibleFrom depth ls) c ∧ stop = c.offset + byteLength c.text := by
  induction ls generalizing inner depth with
  | nil => simp [endFrom?, visibleFrom, ClosedBy]
  | cons l ls ih =>
    simp only [endFrom?, visibleFrom]
    split_ifs with hhides hstart hend hinner
    · exact ih
    · simp only [ih, closedBy_of_open hstart]
    · simp [closedBy_of_close hend, hinner, eq_comm]
    · simp [ih, closedBy_of_close hend, hinner]
    · have hplain : bracket? l = none := by rw [bracket?, if_neg hstart, if_neg hend]
      simp only [ih, closedBy_of_plain hplain]

/-- A match of the first line with a later one, or of two later lines. -/
lemma matches_cons_iff :
    Matches (l :: lines) o c ↔
      (o = l ∧ isRegionStart l.text ∧ ClosedBy 0 lines c) ∨ Matches lines o c := by
  constructor
  · rintro ⟨hstart, hend, above, inner, below, hlines, hinner⟩
    cases above with
    | nil =>
      obtain ⟨rfl, hrest⟩ := List.cons.inj hlines
      exact Or.inl ⟨rfl, hstart, hend, inner, below, hrest, closes_zero_iff.mpr hinner⟩
    | cons m above =>
      obtain ⟨-, hrest⟩ := List.cons.inj hlines
      exact Or.inr ⟨hstart, hend, above, inner, below, hrest, hinner⟩
  · rintro (⟨rfl, hstart, hend, inner, below, rfl, hinner⟩ |
      ⟨hstart, hend, above, inner, below, rfl, hinner⟩)
    · exact ⟨hstart, hend, [], inner, below, rfl, closes_zero_iff.mp hinner⟩
    · exact ⟨hstart, hend, l :: above, inner, below, rfl, hinner⟩

lemma Matches.mem (h : Matches lines o c) : o ∈ lines := by
  obtain ⟨-, -, above, inner, below, rfl, -⟩ := h
  exact List.mem_append_right _ List.mem_cons_self

/-! ### Two pairs -/

/-- Behind a bracket that is opened among nested ones, more brackets are closed than opened. -/
lemma count_lt_of_closes {x y : List DyckStep} (h : Closes 0 (x ++ .U :: y)) :
    y.count .U < y.count .D := by
  have hcount := h.count
  have htake := h.take x.length
  simp at hcount htake
  omega

lemma count_le_of_closes {x y : List DyckStep} (h : Closes 0 (x ++ y)) :
    x.count .D ≤ x.count .U := by
  have htake := h.take x.length
  simp at htake
  omega

/-- What opens among nested brackets is closed among them. -/
lemma mem_of_opened_inside {x y inner below below' : List Line}
    (hinner : Closes 0 (brackets (x ++ o :: y)))
    (ho : isRegionStart o.text) (hinner' : Closes 0 (brackets inner))
    (hsame : y ++ c :: below = inner ++ c' :: below') : c' ∈ y := by
  have hmore : (brackets y).count .U < (brackets y).count .D := by
    refine count_lt_of_closes (x := brackets x) ?_
    rwa [brackets, List.filterMap_append, List.filterMap_cons,
      bracket?_eq_open_iff.mpr ho] at hinner
  have hlonger : ¬ y <+: inner := by
    rintro ⟨rest, rfl⟩
    rw [brackets, List.filterMap_append] at hinner'
    exact absurd (count_le_of_closes hinner') (Nat.not_le.mpr hmore)
  rcases List.append_eq_append_iff.mp hsame with ⟨rest, hrest, -⟩ | ⟨rest, rfl, hrest⟩
  · exact absurd ⟨rest, hrest.symm⟩ hlonger
  · cases rest with
    | nil => exact absurd (by rw [List.append_nil]) hlonger
    | cons m rest =>
      obtain ⟨rfl, -⟩ := List.cons.inj hrest
      simp

/-- **Two pairs**: the one that starts later lies behind the other, or inside it. -/
lemma Matches.before_or_inside (h : Matches lines o c) (h' : Matches lines o' c')
    (hlines : lines.Pairwise fun l m => l.offset + byteLength l.text < m.offset)
    (hlt : o.offset < o'.offset) :
    c.offset + byteLength c.text < o'.offset ∨ c'.offset + byteLength c'.text < c.offset := by
  obtain ⟨-, hend, above, inner, below, hsplit, hinner⟩ := h
  obtain ⟨hstart', -, above', inner', below', hsplit', hinner'⟩ := h'
  have hordered := hlines
  rw [hsplit, List.pairwise_append, List.pairwise_cons, List.pairwise_append,
    List.pairwise_cons] at hordered
  obtain ⟨-, ⟨-, -, ⟨hbelow, -⟩, hcross⟩, habove⟩ := hordered
  have hmem : o' ∈ lines := by rw [hsplit']; simp
  rw [hsplit, List.mem_append, List.mem_cons, List.mem_append, List.mem_cons] at hmem
  rcases hmem with hmem | rfl | hmem | rfl | hmem
  · have := habove o' hmem o List.mem_cons_self
    omega
  · omega
  · refine Or.inr ?_
    obtain ⟨x, y, rfl⟩ := List.append_of_mem hmem
    -- the later pair starts at one place among the lines
    have hnotMem : o' ∉ above' ∧ o' ∉ inner' ++ c' :: below' := by
      rw [hsplit', List.pairwise_append, List.pairwise_cons] at hlines
      refine ⟨fun hm => ?_, fun hm => ?_⟩
      · have := hlines.2.2 o' hm o' List.mem_cons_self
        omega
      · have := hlines.2.1.1 o' hm
        omega
    have hsame : above' ++ o' :: (inner' ++ c' :: below') =
        (above ++ o :: x) ++ o' :: (y ++ c :: below) := by
      rw [← hsplit', hsplit]
      simp
    obtain ⟨-, -, hrest⟩ := (List.append_cons_inj_of_notMem hnotMem.1 hnotMem.2).mp hsame
    have hc' : c' ∈ y := mem_of_opened_inside (closes_zero_iff.mpr hinner) hstart'
      (closes_zero_iff.mpr hinner')
      hrest.symm
    exact hcross c' (by simp [hc']) c List.mem_cons_self
  · rw [isRegionStart_of_isRegionEnd hend] at hstart'
    cases hstart'
  · exact Or.inl (hbelow o' hmem)

end Region

namespace Outline

open AutoItServer.Source (isRegionStart depthAfter hides visibleFrom)
open AutoItServer.Text (byteLength)

variable {options : SymbolOptions} {t : Text} {l o c : Line} {ls lines following : List Line}
  {r s : Symbol}

/-- A region symbol that stands for the lines from a `#Region` line to an `#EndRegion` line. -/
structure Spans (r : Symbol) (o c : Line) : Prop where
  kind : r.kind = .region
  name : r.name = Region.name o.text
  start : r.start = o.offset
  stop : r.stop = c.offset + byteLength c.text

namespace Progress

variable {p : Progress}

lemma mem_regionsOf {listed : List Symbol} :
    r ∈ regionsOf listed ↔ r ∈ listed ∧ r.kind = .region := by
  rw [regionsOf, List.mem_filter, decide_eq_true_eq]

lemma regionsOf_append_of_forall {listed new : List Symbol} (h : ∀ s ∈ new, s.kind ≠ .region) :
    regionsOf (listed ++ new) = regionsOf listed := by
  have hnone : regionsOf new = [] :=
    List.filter_eq_nil_iff.mpr fun s hs => by rw [decide_eq_true_eq]; exact h s hs
  rw [regionsOf, List.filter_append]
  exact (congrArg (regionsOf listed ++ ·) hnone).trans (List.append_nil _)

/-- What a line adds to the regions: a region of its name if it opens one that is closed, and that
name is new. -/
structure AddsRegion (options : SymbolOptions) (p : Progress) (l : Line) (following : List Line)
    (new : List Symbol) : Prop where
  spans : ∀ r ∈ new, hides p.depth l.text = false ∧ isRegionStart l.text ∧
    ∃ c, Region.ClosedBy 0 (visibleFrom 0 following) c ∧ Spans r l c
  named : options.withRegions → hides p.depth l.text = false → isRegionStart l.text →
    Region.name l.text ≠ [] → ∀ c, Region.ClosedBy 0 (visibleFrom 0 following) c →
      ∃ r ∈ regionsOf p.found ++ new, r.name = Region.name l.text

/-- A `#Region` line adds its region, if it is closed, unless its name is empty or listed. -/
lemma regionsOf_takeRegion (p : Progress) (l : Line) (following : List Line) :
    ∃ new, regionsOf (p.takeRegion l following).found = regionsOf p.found ++ new ∧
      (∀ r ∈ new, ∃ c, Region.ClosedBy 0 (visibleFrom 0 following) c ∧ Spans r l c) ∧
      (Region.name l.text ≠ [] → ∀ c, Region.ClosedBy 0 (visibleFrom 0 following) c →
        ∃ r ∈ regionsOf p.found ++ new, r.name = Region.name l.text) := by
  simp only [takeRegion]
  split_ifs with hlisted
  · refine ⟨[], (List.append_nil _).symm, List.forall_mem_nil _, fun hname _ _ => ?_⟩
    rw [Bool.or_eq_true, List.isEmpty_iff, or_iff_right hname, hasRegion,
      List.any_eq_true] at hlisted
    obtain ⟨r, hr, hsame⟩ := hlisted
    rw [Bool.and_eq_true, decide_eq_true_eq, beq_iff_eq] at hsame
    exact ⟨r, List.mem_append_left _ (mem_regionsOf.mpr ⟨hr, hsame.1⟩), hsame.2⟩
  · split
    · rename_i hend
      refine ⟨[], (List.append_nil _).symm, List.forall_mem_nil _, fun _ c hc => ?_⟩
      have hsome := Region.endFrom?_eq_some_iff.mpr ⟨c, hc, rfl⟩
      rw [← Region.end?, hend] at hsome
      cases hsome
    · rename_i stop hend
      obtain ⟨c, hc, hstop⟩ := Region.endFrom?_eq_some_iff.mp hend
      refine ⟨_, List.filter_append _ _, fun r hr => ?_, fun _ _ _ => ?_⟩
      · obtain ⟨hr, -⟩ := mem_regionsOf.mp hr
        rw [List.mem_singleton.mp hr]
        exact ⟨c, hc, rfl, rfl, rfl, hstop⟩
      · exact ⟨_, List.mem_append_right _ (mem_regionsOf.mpr ⟨List.mem_singleton_self _, rfl⟩), rfl⟩

/-- **One line** and the regions. -/
lemma regionsOf_step (hp : p.Fit) (options : SymbolOptions) (t : Text) (l : Line)
    (following : List Line) :
    ∃ new, AddsRegion options p l following new ∧
      regionsOf (p.step options t l following).found = regionsOf p.found ++ new := by
  have hnothing (h : hides p.depth l.text = false → isRegionStart l.text →
        options.withRegions = false) :
      AddsRegion options p l following [] := by
    refine ⟨List.forall_mem_nil _, fun hregions hhides hstart => ?_⟩
    rw [h hhides hstart] at hregions
    cases hregions
  rw [step_eq]
  split_ifs with hskip hhides
  · refine ⟨[], hnothing fun _ hstart => ?_, (List.append_nil _).symm⟩
    rw [hstart] at hskip
    simp at hskip
  · refine ⟨[], hnothing fun hvisible => ?_, (List.append_nil _).symm⟩
    rw [hhides] at hvisible
    cases hvisible
  · obtain ⟨fs, hfs, hfound, -, hfit⟩ := exists_takeFunction (p := p.counted l) hp t l
    have hkept : regionsOf ((p.counted l).takeFunction t l).found = regionsOf p.found := by
      rw [hfound]
      refine regionsOf_append_of_forall fun s hs => ?_
      rw [hfs s hs]
      decide
    rw [takeRest]
    split_ifs with hstart hregions
    · obtain ⟨new, hnew, hspans, hnamed⟩ :=
        regionsOf_takeRegion ((p.counted l).takeFunction t l) l following
      rw [hkept] at hnew hnamed
      refine ⟨new, ⟨fun r hr => ⟨Bool.not_eq_true _ ▸ hhides, hstart, hspans r hr⟩, ?_⟩, hnew⟩
      exact fun _ _ _ => hnamed
    · exact ⟨[], hnothing fun _ _ => Bool.not_eq_true _ ▸ hregions, by rw [hkept, List.append_nil]⟩
    · obtain ⟨vs, hvs, hlisted, -⟩ := takeVariables_cases hfit l
      refine ⟨[], hnothing fun _ h => absurd h hstart, ?_⟩
      rw [hlisted, regionsOf_append_of_forall fun s hs => (hvs s hs).1.kind.2, hkept,
        List.append_nil]
    · exact ⟨[], hnothing fun _ h => absurd h hstart, by rw [hkept, List.append_nil]⟩

/-- A line above adds nothing to the matches of visible lines below it. -/
lemma matches_visibleFrom_cons {d : Nat}
    (h : Region.Matches (visibleFrom (depthAfter d l.text) ls) o c) :
    Region.Matches (visibleFrom d (l :: ls)) o c := by
  rw [visibleFrom]
  split_ifs
  · exact h
  · exact Region.matches_cons_iff.mpr (Or.inr h)

/-- **The regions that lines add** span matching lines. -/
lemma regions_run (hp : p.Fit) (options : SymbolOptions) (t : Text) (ls : List Line) :
    ∀ r ∈ regionsOf (p.run options t ls).found, r ∈ regionsOf p.found ∨
      ∃ o c, Region.Matches (visibleFrom p.depth ls) o c ∧ Spans r o c := by
  induction ls generalizing p with
  | nil => exact fun r hr => Or.inl hr
  | cons l ls ih =>
    intro r hr
    obtain ⟨-, -, -, hdepth, hfit⟩ := step_cases hp options t l ls
    obtain ⟨new, hadds, hregions⟩ := regionsOf_step hp options t l ls
    rcases ih hfit r hr with hr | ⟨o, c, hmatches, hspans⟩
    · rw [hregions, List.mem_append] at hr
      refine hr.imp id fun hr => ?_
      obtain ⟨hvisible, hstart, c, hc, hspans⟩ := hadds.spans r hr
      -- a visible line stands outside every block, as the search for the end takes it to
      refine ⟨l, c, ?_, hspans⟩
      rw [visibleFrom, hvisible, if_neg (by decide), (Source.depthAfter_of_not_hides hvisible).2]
      exact Region.matches_cons_iff.mpr (Or.inl ⟨rfl, hstart, hc⟩)
    · rw [hdepth] at hmatches
      exact Or.inr ⟨o, c, matches_visibleFrom_cons hmatches, hspans⟩

/-- **Matching lines add a region** of their name, if it is not listed further up. -/
lemma exists_region_run (hp : p.Fit) (hregions : options.withRegions) (t : Text)
    (hls : ls.Pairwise fun l m => l.offset < m.offset)
    (hearlier : ∀ r ∈ regionsOf p.found, ∀ l ∈ ls, r.start ≤ l.offset)
    (hmatches : Region.Matches (visibleFrom p.depth ls) o c) (hname : Region.name o.text ≠ []) :
    ∃ r ∈ regionsOf (p.run options t ls).found, r.name = Region.name o.text ∧
      r.start ≤ o.offset := by
  induction ls generalizing p with
  | nil => cases hmatches.mem
  | cons l ls ih =>
    obtain ⟨-, -, -, hdepth, hfit⟩ := step_cases hp options t l ls
    obtain ⟨new, hadds, hfound⟩ := regionsOf_step hp options t l ls
    obtain ⟨hlater, hls⟩ := List.pairwise_cons.mp hls
    have hstarts : ∀ r ∈ regionsOf p.found ++ new, r.start ≤ l.offset := by
      intro r hr
      rcases List.mem_append.mp hr with hr | hr
      · exact hearlier r hr l List.mem_cons_self
      · obtain ⟨-, -, c, -, hspans⟩ := hadds.spans r hr
        exact hspans.start.le
    have hbelow (h : Region.Matches (visibleFrom (depthAfter p.depth l.text) ls) o c) :
        ∃ r ∈ regionsOf (p.run options t (l :: ls)).found, r.name = Region.name o.text ∧
          r.start ≤ o.offset := by
      refine ih hfit hls (fun r hr m hm => ?_) (by rwa [hdepth])
      rw [hfound] at hr
      exact (hstarts r hr).trans (hlater m hm).le
    rw [visibleFrom] at hmatches
    by_cases hhides : hides p.depth l.text
    · exact hbelow (by simpa [hhides] using hmatches)
    · rw [Bool.not_eq_true] at hhides
      rw [hhides, if_neg (by decide), Region.matches_cons_iff] at hmatches
      rcases hmatches with ⟨rfl, hstart, hc⟩ | hmatches
      · rw [(Source.depthAfter_of_not_hides hhides).2] at hc
        obtain ⟨r, hr, hrname⟩ := hadds.named hregions hhides hstart hname c hc
        refine ⟨r, ?_, hrname, hstarts r hr⟩
        rw [← hfound] at hr
        obtain ⟨hr, hkind⟩ := mem_regionsOf.mp hr
        exact mem_regionsOf.mpr ⟨(found_run hfit options t ls).subset hr, hkind⟩
      · exact hbelow hmatches

end Progress

/-- The lines of a text that are looked at and stand outside every block comment. -/
def visibleLines (options : SymbolOptions) (t : Text) : List Line :=
  visibleFrom 0 ((Text.lines t).take options.maxLines)

/-- A visible line ends before the next one starts. -/
lemma pairwise_visibleLines (options : SymbolOptions) (t : Text) :
    (visibleLines options t).Pairwise fun l m => l.offset + byteLength l.text < m.offset :=
  (Text.pairwise_numberLines 0 0 t).sublist
    ((Source.visibleFrom_sublist _ _).trans (List.take_sublist _ _))

/-- A visible line is known by its offset. -/
lemma eq_of_mem_visibleLines {m : Line} (hl : l ∈ visibleLines options t)
    (hm : m ∈ visibleLines options t) (h : l.offset = m.offset) : l = m := by
  have hnodup : ((visibleLines options t).map Line.offset).Nodup :=
    List.pairwise_map.mpr ((pairwise_visibleLines options t).imp fun hlt heq => by omega)
  exact List.inj_on_of_nodup_map hnodup hl hm h

/-- Each region of an outline spans matching lines. -/
lemma exists_matches (hr : r ∈ symbols options t) (hkind : r.kind = .region) :
    ∃ o c, Region.Matches (visibleLines options t) o c ∧ Spans r o c := by
  refine (Progress.regions_run Progress.fit_start options t _ r ?_).resolve_left
    (List.not_mem_nil (a := r))
  exact Progress.mem_regionsOf.mpr ⟨hr, hkind⟩

/-- Of two ranges, one lies behind the other, or strictly inside it. -/
def Nested (r s : Symbol) : Prop :=
  r.stop ≤ s.start ∨ s.stop ≤ r.start ∨
    (r.start < s.start ∧ s.stop < r.stop) ∨ (s.start < r.start ∧ r.stop < s.stop)

/-- Two regions with different names are nested. -/
lemma nested_of_name_ne (hr : r ∈ regionsOf (symbols options t))
    (hs : s ∈ regionsOf (symbols options t)) (hne : r.name ≠ s.name) : Nested r s := by
  obtain ⟨hr, hrkind⟩ := Progress.mem_regionsOf.mp hr
  obtain ⟨hs, hskind⟩ := Progress.mem_regionsOf.mp hs
  obtain ⟨o, c, hmatches, hspans⟩ := exists_matches hr hrkind
  obtain ⟨o', c', hmatches', hspans'⟩ := exists_matches hs hskind
  have hlines := pairwise_visibleLines options t
  have hstart := hspans.start
  have hstop := hspans.stop
  have hstart' := hspans'.start
  have hstop' := hspans'.stop
  rw [Nested]
  rcases Nat.lt_trichotomy o.offset o'.offset with hlt | heq | hlt
  · have := hmatches.before_or_inside hmatches' hlines hlt
    omega
  · -- one line has one name
    have hsame := eq_of_mem_visibleLines hmatches.mem hmatches'.mem heq
    exact absurd (by rw [hspans.name, hspans'.name, hsame]) hne
  · have := hmatches'.before_or_inside hmatches hlines hlt
    omega

/-- **Regions match like brackets.** Of the lines that are looked at, those outside block comments
count. A region starts with a `#Region` line, whose name it has, and ends with the `#EndRegion` line
that matches it. A `#Region` line that nothing matches starts no region. So any two regions are
apart, or one lies strictly inside the other. Where regions are shown, every matching pair with a
name has its region, or one further up has taken the name. -/
theorem regions_matched (options : SymbolOptions) (t : Text) :
    (∀ r ∈ symbols options t, r.kind = .region →
      ∃ o c, Region.Matches (visibleLines options t) o c ∧
      r.name = Region.name o.text ∧ r.start = o.offset ∧ r.stop = c.offset + byteLength c.text) ∧
    (∀ o ∈ visibleLines options t, isRegionStart o.text →
      (∀ c, ¬ Region.Matches (visibleLines options t) o c) →
        ∀ r ∈ symbols options t, r.kind = .region → r.start ≠ o.offset) ∧
    (regionsOf (symbols options t)).Pairwise Nested ∧
    (options.withRegions → ∀ o c, Region.Matches (visibleLines options t) o c →
      Region.name o.text ≠ [] →
      ∃ r ∈ symbols options t, r.kind = .region ∧ r.name = Region.name o.text ∧
        r.start ≤ o.offset) := by
  refine ⟨fun r hr hkind => ?_, fun o ho _ hnone r hr hkind hstart => ?_, ?_,
    fun hregions o c hmatches hname => ?_⟩
  · obtain ⟨o, c, hmatches, hspans⟩ := exists_matches hr hkind
    exact ⟨o, c, hmatches, hspans.name, hspans.start, hspans.stop⟩
  · obtain ⟨o', c, hmatches, hspans⟩ := exists_matches hr hkind
    have hsame := eq_of_mem_visibleLines hmatches.mem ho (hspans.start.symm.trans hstart)
    exact hnone c (hsame ▸ hmatches)
  · have hdistinct : Distinct (symbols options t) :=
      Progress.distinct_run Progress.fit_start ⟨.nil, .nil, .nil⟩ options t _
    exact (List.pairwise_map.mp hdistinct.regions).imp_of_mem nested_of_name_ne
  · have hordered : ((Text.lines t).take options.maxLines).Pairwise fun l m =>
        l.offset < m.offset :=
      ((Text.pairwise_numberLines 0 0 t).imp fun hlt => by omega).sublist (List.take_sublist _ _)
    obtain ⟨r, hr, hnamed⟩ := Progress.exists_region_run Progress.fit_start hregions t hordered
      (List.forall_mem_nil _) hmatches hname
    obtain ⟨hr, hkind⟩ := Progress.mem_regionsOf.mp hr
    exact ⟨r, hr, hkind, hnamed⟩

/-- A stray end, two regions of one name, a marker in a comment, and a region whose end is beyond
the limit. -/
def tangled : Text :=
  ("#EndRegion\n#Region A\n#cs\n#EndRegion\n#ce\n#Region A\n#EndRegion\n#Region - B\n" ++
    "#EndRegion\n#EndRegion\n#Region C\n#EndRegion").toList

/-- The outer region ends with the last line but one that is looked at, and the last one starts
none. -/
theorem regions_matched_tangled :
    symbols ⟨true, true, 11⟩ tangled =
        [⟨"A".toList, .region, none, 11, 94⟩, ⟨"B".toList, .region, none, 61, 83⟩] ∧
      (∃ o c, Region.Matches (visibleLines ⟨true, true, 11⟩ tangled) o c ∧
        11 = o.offset ∧ 94 = c.offset + byteLength c.text) ∧
      Nested ⟨"A".toList, .region, none, 11, 94⟩ ⟨"B".toList, .region, none, 61, 83⟩ ∧
      ∀ r ∈ symbols ⟨true, true, 11⟩ tangled, r.kind = .region → r.start ≠ 95 := by
  have hlisted : symbols ⟨true, true, 11⟩ tangled =
      [⟨"A".toList, .region, none, 11, 94⟩, ⟨"B".toList, .region, none, 61, 83⟩] := by
    decide +kernel
  have hlast : (visibleLines ⟨true, true, 11⟩ tangled).getLast? =
      some ⟨10, 95, "#Region C".toList⟩ := by
    decide +kernel
  obtain ⟨hspans, hunmatched, hnested, -⟩ := regions_matched ⟨true, true, 11⟩ tangled
  refine ⟨hlisted, ?_, ?_, ?_⟩
  · obtain ⟨o, c, hmatches, -, hstart, hstop⟩ := hspans _ (hlisted ▸ List.mem_cons_self) rfl
    exact ⟨o, c, hmatches, hstart, hstop⟩
  · rw [hlisted] at hnested
    exact (List.pairwise_cons.mp hnested).1 _ List.mem_cons_self
  · refine hunmatched ⟨10, 95, "#Region C".toList⟩ (List.mem_of_getLast? hlast) (by decide) ?_
    -- no line follows it
    rintro c ⟨-, -, above, inner, below, hsplit, -⟩
    have hordered := pairwise_visibleLines ⟨true, true, 11⟩ tangled
    rw [hsplit, List.append_cons, List.getLast?_append_of_ne_nil _ (by simp)] at hlast
    rw [hsplit, List.pairwise_append, List.pairwise_cons] at hordered
    have hlater := hordered.2.1.1 _ (List.mem_of_getLast? hlast)
    omega

end Outline

end AutoItServer
