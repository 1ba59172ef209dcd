import AutoItServer.Editor.Basic
import AutoItServer.Proofs.Data.OrderedMap
import AutoItServer.Proofs.Uri.RoundTrip
import Mathlib.Data.List.Induction
import Mathlib.Data.List.Nodup
import Mathlib.Logic.Function.Basic

/-!
What a client shows of the checker is its latest report.

The client hears of single documents: a publication replaces the diagnostics of its document, and a
document that is not published keeps those it has. The editor remembers which documents show
something, and withdraws the diagnostics of those that the next report does not mention.

* `Report.Grouped`, `grouped_run`: the groups of a report hold its findings by file, in their order.
* `mem_diagnostics_read`: the documents that a report gives diagnostics, and which.
* `nodup_publish`: a report publishes a document once.
* `Display.receive_of_mem`, `Display.receive_of_notMem`: what publications do to one document.
* `Workbench.IsSettled` (**the invariant**): the documents remembered are those that show something.
* `display_eq_latest` (**nothing stale**): after every run of the checker.
-/

namespace AutoItServer

/-! ### Identifiers -/

namespace Uri

variable {p q : Path} {u : Uri}

lemma exists_ofPath?_iff : (∃ u, ofPath? p = some u) ↔ p.isAbsolute := by
  rw [ofPath?]
  split_ifs with h <;> simp [h]

/-- Paths with the same identifier have the same components. -/
lemma components_eq_of_ofPath? (hp : ofPath? p = some u) (hq : ofPath? q = some u) :
    p.components = q.components := by
  obtain ⟨r, hr, hrp⟩ := path?_of_ofPath? hp
  obtain ⟨r', hr', hrq⟩ := path?_of_ofPath? hq
  obtain rfl := Option.some.inj (hr.symm.trans hr')
  exact hrp.symm.trans hrq

/-- The paths of an identifier are those that are the same as one of them. -/
lemma ofPath?_eq_some_iff_same (hp : ofPath? p = some u) : ofPath? q = some u ↔ q.same p := by
  rw [Path.same_iff]
  exact ⟨fun hq => components_eq_of_ofPath? hq hp, fun h => (ofPath?_congr h).trans hp⟩

end Uri

/-! ### Findings by file -/

namespace Report

variable {groups : List (Path × List Finding)} {fs : List Finding} {f : Finding}
  {output : Text} {u : Uri}

/-- Groups that hold some findings by file: each file has one group, which is not empty and holds
the findings of the file in their order. -/
structure Grouped (groups : List (Path × List Finding)) (fs : List Finding) : Prop where
  apart : groups.Pairwise fun a b => ¬ a.1.same b.1
  whole : ∀ e ∈ groups, e.2 = fs.filter fun f => f.path.same e.1
  inhabited : ∀ e ∈ groups, e.2 ≠ []
  covered : ∀ f ∈ fs, ∃ e ∈ groups, f.path.same e.1

/-- A group with a finding at its end, if that is one of its file. -/
def grow (f : Finding) (e : Path × List Finding) : Path × List Finding :=
  (e.1, e.2 ++ [f].filter fun f => f.path.same e.1)

lemma grow_of_same {e : Path × List Finding} (h : f.path.same e.1) :
    grow f e = (e.1, e.2 ++ [f]) := by
  simp [grow, h]

lemma grow_of_not_same {e : Path × List Finding} (h : ¬ f.path.same e.1) : grow f e = e := by
  simp [grow, h]

/-- **A finding** goes to the group of its file, or starts one at the end. -/
lemma addFinding_of_apart (h : groups.Pairwise fun a b => ¬ a.1.same b.1) (f : Finding) :
    addFinding groups f = groups.map (grow f) ++
      if groups.any fun e => f.path.same e.1 then [] else [(f.path, [f])] := by
  induction groups with
  | nil => rfl
  | cons e groups ih =>
    obtain ⟨p, fs⟩ := e
    obtain ⟨hfirst, hrest⟩ := List.pairwise_cons.mp h
    rw [addFinding, List.map_cons, List.any_cons]
    by_cases hsame : f.path.same p
    · -- no later group is one of this file
      have hlater : groups.map (grow f) = groups := by
        refine (List.map_congr_left fun e he => grow_of_not_same fun hf => hfirst e he ?_).trans
          (List.map_id groups)
        rw [Path.same_iff] at hsame hf ⊢
        exact hsame.symm.trans hf
      rw [if_pos (Path.same_symm hsame), grow_of_same hsame, hlater, hsame]
      simp
    · rw [if_neg fun hf => hsame (Path.same_symm hf), grow_of_not_same hsame,
        ih hrest, List.cons_append, Bool.eq_false_iff.mpr hsame, Bool.false_or]

/-- **A step**: one more finding. -/
lemma grouped_add (h : Grouped groups fs) (f : Finding) :
    Grouped (addFinding groups f) (fs ++ [f]) := by
  rw [addFinding_of_apart h.apart]
  have happart : (groups.map (grow f)).Pairwise fun a b => ¬ a.1.same b.1 :=
    List.pairwise_map.mpr h.apart
  have hwhole : ∀ e ∈ groups.map (grow f), e.2 = (fs ++ [f]).filter fun f => f.path.same e.1 := by
    intro e he
    obtain ⟨g, hg, rfl⟩ := List.mem_map.mp he
    rw [List.filter_append, grow, h.whole g hg]
  have hinhabited : ∀ e ∈ groups.map (grow f), e.2 ≠ [] := by
    intro e he
    obtain ⟨g, hg, rfl⟩ := List.mem_map.mp he
    exact List.append_ne_nil_of_left_ne_nil (h.inhabited g hg) _
  have hcovered : ∀ g ∈ fs, ∃ e ∈ groups.map (grow f), g.path.same e.1 := by
    intro g hg
    obtain ⟨e, he, hsame⟩ := h.covered g hg
    exact ⟨grow f e, List.mem_map_of_mem he, hsame⟩
  split_ifs with hany
  · rw [List.append_nil]
    refine ⟨happart, hwhole, hinhabited, ?_⟩
    obtain ⟨e, he, hsame⟩ := List.any_eq_true.mp hany
    rw [List.forall_mem_append, List.forall_mem_singleton]
    exact ⟨hcovered, grow f e, List.mem_map_of_mem he, hsame⟩
  · have hnone : ∀ e ∈ groups, ¬ f.path.same e.1 := by simpa using hany
    -- so no finding before was one of this file
    have hnew : fs.filter (fun g => g.path.same f.path) = [] := by
      refine List.filter_eq_nil_iff.mpr fun g hg hsame => ?_
      obtain ⟨e, he, hge⟩ := h.covered g hg
      rw [Path.same_iff] at hsame hge
      exact hnone e he (Path.same_iff.mpr (hsame.symm.trans hge))
    have hself : f.path.same f.path := Path.same_iff.mpr rfl
    refine ⟨?_, ?_, ?_, ?_⟩
    · refine List.pairwise_append.mpr ⟨happart, List.pairwise_singleton _ _,
        fun a ha b hb hsame => ?_⟩
      obtain ⟨g, hg, rfl⟩ := List.mem_map.mp ha
      obtain rfl := List.mem_singleton.mp hb
      exact hnone g hg (Path.same_symm hsame)
    · rw [List.forall_mem_append, List.forall_mem_singleton]
      refine ⟨hwhole, ?_⟩
      simp [List.filter_append, hnew, hself]
    · rw [List.forall_mem_append, List.forall_mem_singleton]
      exact ⟨hinhabited, List.cons_ne_nil _ _⟩
    · rw [List.forall_mem_append, List.forall_mem_singleton]
      refine ⟨fun g hg => ?_, (f.path, [f]),
        List.mem_append_right _ (List.mem_singleton_self _), hself⟩
      obtain ⟨e, he, hsame⟩ := hcovered g hg
      exact ⟨e, List.mem_append_left _ he, hsame⟩

/-- **A run**: the groups of some findings hold just these. -/
lemma grouped_run (fs : List Finding) : Grouped (fs.foldl addFinding []) fs := by
  induction fs using List.reverseRecOn with
  | nil =>
    exact ⟨.nil, fun _ h => absurd h List.not_mem_nil, fun _ h => absurd h List.not_mem_nil,
      fun _ h => absurd h List.not_mem_nil⟩
  | append_singleton fs f ih =>
    rw [List.foldl_append]
    exact grouped_add ih f

/-! ### Diagnostics of a report -/

/-- The findings of an output, in their order. An output that says that it is clean has none. -/
def findingsOf (output : Text) : List Finding :=
  if (Text.strictLines output).any (Text.occursIn sentinel) then []
  else (Text.strictLines output).filterMap Finding.parse?

/-- The diagnostics of an output for one document. -/
def diagnosticsAt (output : Text) (u : Uri) : List Diagnostic :=
  ((findingsOf output).filter fun f => decide (Uri.ofPath? f.path = some u)).map Finding.diagnostic

/-- The groups of an output. -/
lemma exists_grouped (output : Text) : ∃ groups, Grouped groups (findingsOf output) ∧
    (read output).diagnostics = groups.filterMap fun e =>
      (Uri.ofPath? e.1).map fun u => (u, e.2.map Finding.diagnostic) := by
  rw [read, findingsOf]
  split_ifs
  · exact ⟨[], grouped_run [], rfl⟩
  · exact ⟨_, grouped_run _, rfl⟩

/-- **The diagnostics of a report** are those of each document that has some. -/
lemma mem_diagnostics_read {ds : List Diagnostic} :
    (u, ds) ∈ (read output).diagnostics ↔ ds = diagnosticsAt output u ∧ ds ≠ [] := by
  obtain ⟨groups, hgroups, hread⟩ := exists_grouped output
  rw [hread, List.mem_filterMap]
  -- a group of a path of the document holds the findings of all its paths
  have hgroup : ∀ e ∈ groups, Uri.ofPath? e.1 = some u →
      e.2.map Finding.diagnostic = diagnosticsAt output u := by
    intro e he hu
    rw [diagnosticsAt, hgroups.whole e he]
    refine congrArg _ (List.filter_congr fun f _ => ?_)
    rw [Bool.eq_iff_iff, decide_eq_true_iff, Uri.ofPath?_eq_some_iff_same hu]
  constructor
  · rintro ⟨e, he, heq⟩
    obtain ⟨v, hv, hpair⟩ := Option.map_eq_some_iff.mp heq
    obtain ⟨rfl, rfl⟩ := Prod.mk.inj hpair
    exact ⟨hgroup e he hv, by simpa using hgroups.inhabited e he⟩
  · rintro ⟨rfl, hne⟩
    obtain ⟨f, hf⟩ := List.exists_mem_of_ne_nil _ (mt List.map_eq_nil_iff.mpr hne)
    obtain ⟨hf, hu⟩ := List.mem_filter.mp hf
    rw [decide_eq_true_iff] at hu
    obtain ⟨e, he, hsame⟩ := hgroups.covered f hf
    have hu' : Uri.ofPath? e.1 = some u :=
      (Uri.ofPath?_congr (Path.same_iff.mp hsame).symm).trans hu
    exact ⟨e, he, by rw [hu', Option.map_some, hgroup e he hu']⟩

/-- A report names a document once. -/
lemma nodup_diagnostics_read (output : Text) : ((read output).diagnostics.map Prod.fst).Nodup := by
  obtain ⟨groups, hgroups, hread⟩ := exists_grouped output
  rw [hread, List.Nodup, List.pairwise_map, List.pairwise_filterMap]
  refine hgroups.apart.imp fun {a b} happart x hx y hy heq => happart ?_
  obtain ⟨u, hu, rfl⟩ := Option.map_eq_some_iff.mp hx
  obtain ⟨v, hv, rfl⟩ := Option.map_eq_some_iff.mp hy
  obtain rfl : u = v := heq
  exact (Uri.ofPath?_eq_some_iff_same hv).mp hu

/-! ### Publications -/

/-- The documents to be withdrawn are those that showed something and have nothing now. -/
lemma mem_stale {previous : List Uri} {fresh : List (Uri × List Diagnostic)} :
    u ∈ stale previous fresh ↔ u ∈ previous ∧ u ∉ fresh.map Prod.fst := by
  have hany : (fresh.any fun e => e.1 == u) = true ↔ u ∈ fresh.map Prod.fst := by
    rw [List.any_eq_true, List.mem_map]
    simp only [beq_iff_eq]
  rw [stale, List.mem_mergeSort, List.mem_filter, List.mem_eraseDups, ← hany, Bool.not_eq_true',
    Bool.not_eq_true]

/-- **Once each**: a run publishes a document at most once. -/
lemma nodup_publish (output : Text) (previous : List Uri) :
    (((read output).publish previous).map Prod.fst).Nodup := by
  rw [publish, List.map_append, List.map_map, List.nodup_append]
  refine ⟨nodup_diagnostics_read output, ?_, fun u hu v hv heq => ?_⟩
  · show ((stale previous _).map id).Nodup
    rw [List.map_id, stale]
    exact (List.mergeSort_perm _ _).nodup_iff.mpr ((OrderedMap.nodup_eraseDups _).filter _)
  · obtain ⟨w, hw, rfl⟩ := List.mem_map.mp hv
    obtain rfl : u = w := heq
    exact (mem_stale.mp hw).2 hu

/-- **What is published**: the diagnostics of each document that has some, and nothing for each that
showed something before. -/
lemma mem_publish {previous : List Uri} {ds : List Diagnostic} :
    (u, ds) ∈ (read output).publish previous ↔
      ds = diagnosticsAt output u ∧ (ds ≠ [] ∨ u ∈ previous) := by
  have hfresh : u ∈ (read output).diagnostics.map Prod.fst ↔ diagnosticsAt output u ≠ [] := by
    rw [List.mem_map]
    constructor
    · rintro ⟨⟨v, es⟩, hmem, rfl⟩
      obtain ⟨rfl, hne⟩ := mem_diagnostics_read.mp hmem
      exact hne
    · exact fun hne => ⟨(u, diagnosticsAt output u), mem_diagnostics_read.mpr ⟨rfl, hne⟩, rfl⟩
  have hstale : (u, ds) ∈ (stale previous (read output).diagnostics).map (fun u => (u, [])) ↔
      ds = [] ∧ u ∈ previous ∧ diagnosticsAt output u = [] := by
    rw [← not_iff_not.mpr hfresh |>.trans not_not, ← mem_stale]
    simp [and_comm, eq_comm]
  rw [publish, List.mem_append, mem_diagnostics_read, hstale]
  grind

end Report

/-! ### The client -/

/-- What a client shows: the diagnostics of each document. -/
abbrev Display := Uri → List Diagnostic

namespace Display

variable {publications : List (Uri × List Diagnostic)} {u : Uri}

/-- Nothing is shown. -/
def blank : Display := fun _ => []

/-- What is shown after some publications. Each replaces what its document shows. -/
def receive (view : Display) (publications : List (Uri × List Diagnostic)) : Display :=
  publications.foldl (fun view e => Function.update view e.1 e.2) view

/-- A document that is not published shows what it did. -/
lemma receive_of_notMem (h : u ∉ publications.map Prod.fst) (view : Display) :
    view.receive publications u = view u := by
  rw [receive]
  induction publications generalizing view with
  | nil => rfl
  | cons e publications ih =>
    rw [List.map_cons, List.mem_cons, not_or] at h
    rw [List.foldl_cons, ih h.2, Function.update_of_ne h.1]

/-- A document that is published once shows what is published. -/
lemma receive_of_mem (hnodup : (publications.map Prod.fst).Nodup) {ds : List Diagnostic}
    (h : (u, ds) ∈ publications) (view : Display) : view.receive publications u = ds := by
  induction publications generalizing view with
  | nil => cases h
  | cons e publications ih =>
    rw [List.map_cons, List.nodup_cons] at hnodup
    rcases List.mem_cons.mp h with rfl | h
    · exact (receive_of_notMem hnodup.1 _).trans (Function.update_self ..)
    · exact ih hnodup.2 h _

end Display

/-- An editor, with what its client shows. -/
structure Workbench where
  editor : Editor
  display : Display

namespace Workbench

variable {w : Workbench}

/-- An editor at its start, whose client shows nothing. -/
def start (settings : Settings) : Workbench :=
  ⟨.start settings, .blank⟩

/-- The checker has run, and the client has received what is published. -/
def check (w : Workbench) (output : Text) : Workbench :=
  ⟨(w.editor.checked output).1, w.display.receive (w.editor.checked output).2⟩

/-- The checker has run several times. -/
def checkAll (w : Workbench) (outputs : List Text) : Workbench :=
  outputs.foldl check w

/-- **The invariant**: the editor remembers the documents that show something. -/
def IsSettled (w : Workbench) : Prop :=
  ∀ u, u ∈ w.editor.published ↔ w.display u ≠ []

/-- **What is shown** after a run of the checker is what it reports. -/
lemma display_check (h : w.IsSettled) (output : Text) (u : Uri) :
    (w.check output).display u = Report.diagnosticsAt output u := by
  by_cases hpublished : Report.diagnosticsAt output u ≠ [] ∨ u ∈ w.editor.published
  · exact Display.receive_of_mem (Report.nodup_publish output _)
      (Report.mem_publish.mpr ⟨rfl, hpublished⟩) _
  · -- a document that is not mentioned now showed nothing before
    obtain ⟨hnone, hold⟩ := not_or.mp hpublished
    have hnot : u ∉ ((Report.read output).publish w.editor.published).map Prod.fst := by
      intro hmem
      obtain ⟨⟨v, ds⟩, hentry, rfl⟩ := List.mem_map.mp hmem
      obtain ⟨rfl, hshown⟩ := Report.mem_publish.mp hentry
      exact hpublished hshown
    calc (w.check output).display u = w.display u := Display.receive_of_notMem hnot w.display
      _ = [] := not_not.mp (mt (h u).mpr hold)
      _ = Report.diagnosticsAt output u := (not_not.mp hnone).symm

/-- **A step**: a run of the checker keeps the invariant. -/
lemma isSettled_check (h : w.IsSettled) (output : Text) : (w.check output).IsSettled := by
  intro u
  rw [display_check h]
  show u ∈ Report.showing ((Report.read output).publish w.editor.published) ↔ _
  rw [Report.showing, List.mem_map]
  constructor
  · rintro ⟨⟨v, ds⟩, hmem, rfl⟩
    obtain ⟨hmem, hne⟩ := List.mem_filter.mp hmem
    obtain ⟨rfl, -⟩ := Report.mem_publish.mp hmem
    simpa using hne
  · intro hne
    refine ⟨(u, Report.diagnosticsAt output u), List.mem_filter.mpr ⟨?_, by simpa using hne⟩, rfl⟩
    exact Report.mem_publish.mpr ⟨rfl, .inl hne⟩

/-- **A run**: the invariant holds after any number of runs of the checker. -/
lemma isSettled_checkAll (h : w.IsSettled) (outputs : List Text) :
    (w.checkAll outputs).IsSettled := by
  rw [checkAll]
  induction outputs generalizing w with
  | nil => exact h
  | cons output outputs ih => exact ih (isSettled_check h output)

lemma isSettled_start (settings : Settings) : (start settings).IsSettled := fun u => by
  simp [start, Editor.start, Display.blank]

/-- **Nothing stale.** Take any outputs of the checker, processed one after another, and one more.
Then the client shows exactly this last one: the document of an absolute path shows the findings of
that path in the order of the output, and every document of which it has no findings shows nothing.
The editor remembers exactly the documents that show something, and each document was published at
most once. -/
theorem display_eq_latest (settings : Settings) (outputs : List Text) (latest : Text) :
    let before := (start settings).checkAll outputs
    let after := (start settings).checkAll (outputs ++ [latest])
    (∀ p : Path, p.isAbsolute → ∃ u, Uri.ofPath? p = some u ∧ after.display u =
      ((Report.findingsOf latest).filter fun f => f.path.same p).map Finding.diagnostic) ∧
    (∀ u, (∀ f ∈ Report.findingsOf latest, Uri.ofPath? f.path ≠ some u) → after.display u = []) ∧
    (∀ u, u ∈ after.editor.published ↔ after.display u ≠ []) ∧
    ((before.editor.checked latest).2.map Prod.fst).Nodup := by
  intro before after
  have hbefore : before.IsSettled := isSettled_checkAll (isSettled_start settings) outputs
  have hafter : after = before.check latest := List.foldl_append
  rw [hafter]
  refine ⟨fun p hp => ?_, fun u hu => ?_, isSettled_check hbefore latest,
    Report.nodup_publish latest _⟩
  · obtain ⟨u, hu⟩ := Uri.exists_ofPath?_iff.mpr hp
    refine ⟨u, hu, (display_check hbefore latest u).trans
      (congrArg _ (List.filter_congr fun f _ => ?_))⟩
    rw [Bool.eq_iff_iff, decide_eq_true_iff, Uri.ofPath?_eq_some_iff_same hu]
  · rw [display_check hbefore, Report.diagnosticsAt, List.map_eq_nil_iff, List.filter_eq_nil_iff]
    simpa using hu

/-- Two files have findings. -/
def firstOutput : Text :=
  "\"/w/a.au3\"(1,2) : error: x\n\"/w/b.au3\"(3,4) : warning: y\n".toList

/-- The first of them has findings under two spellings of its path, and a relative path has one. -/
def secondOutput : Text :=
  ("\"/w//a.au3\"(5,6) : warning: z\n\"b.au3\"(7,8) : error: v\n" ++
    "\"/w/a.au3\"(9,1) : error: q\n").toList

/-- After the second output the first file shows its two new findings, and the other one nothing. -/
theorem display_eq_latest_withdrawn :
    let after := (start .standard).checkAll [firstOutput, secondOutput]
    (∃ u, Uri.ofPath? (.ofString "/w/a.au3") = some u ∧ u ∈ after.editor.published ∧
      after.display u = [⟨⟨4, 5⟩, .warning, ['z']⟩, ⟨⟨8, 0⟩, .error, ['q']⟩]) ∧
    ∃ u, Uri.ofPath? (.ofString "/w/b.au3") = some u ∧ u ∉ after.editor.published ∧
      after.display u = [] := by
  intro after
  obtain ⟨hpath, hother, hpublished, -⟩ := display_eq_latest .standard [firstOutput] secondOutput
  constructor
  · obtain ⟨u, hu, hshown⟩ := hpath (.ofString "/w/a.au3") (by decide)
    have hfindings : ((Report.findingsOf secondOutput).filter fun f =>
        f.path.same (.ofString "/w/a.au3")).map Finding.diagnostic =
        [⟨⟨4, 5⟩, .warning, ['z']⟩, ⟨⟨8, 0⟩, .error, ['q']⟩] := by decide +kernel
    rw [hfindings] at hshown
    exact ⟨u, hu, (hpublished u).mpr (by rw [hshown]; exact List.cons_ne_nil _ _), hshown⟩
  · obtain ⟨u, hu⟩ := Uri.exists_ofPath?_iff.mpr
      (show (Path.ofString "/w/b.au3").isAbsolute by decide)
    have hnone : ∀ f ∈ Report.findingsOf secondOutput,
        Uri.ofPath? f.path ≠ Uri.ofPath? (.ofString "/w/b.au3") := by decide +kernel
    rw [hu] at hnone
    have hshown := hother u hnone
    exact ⟨u, hu, fun hmem => (hpublished u).mp hmem hshown, hshown⟩

end Workbench

end AutoItServer
