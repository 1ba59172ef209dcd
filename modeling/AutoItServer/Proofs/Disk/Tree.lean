import AutoItServer.Proofs.Disk.Frame
import Mathlib.Data.List.Induction
import Mathlib.Data.List.Nodup

/-!
Disks on which everything stands in a directory.

* `Disk.IsTree`: each place holds one thing, and what stands below another thing stands in a
  directory.
* `Disk.Writable`: a place where a file can be written: no directory stands there, and no file above
  it.
* `isTree_write`, `isTree_delete`: writing and deleting files keep a disk a tree.
* `Path.Direct`: absolute paths without `..`; they are the same when they lead to the same place.
* `locateFrom?_filter_isStep`, `locateFrom?_of_filter_isStep`: repeated slashes and dots lead
  nowhere else.
* `locate?_eq_some_iff`: where a direct path leads on a tree is seen at its place alone.
* `file?_eq_some_iff`: the file at a direct path is the one at its place.
-/

namespace AutoItServer

/-! ### Direct paths -/

namespace Path

/-- An absolute path without `..`. -/
structure Direct (p : Path) : Prop where
  isAbsolute : p.isAbsolute
  straight : .parent ∉ p.components

lemma Direct.components_ne_nil {p : Path} (h : p.Direct) : p.components ≠ [] :=
  List.ne_nil_of_mem (isAbsolute_iff_root_mem.mp h.isAbsolute)

/-- Whether a part between slashes is neither empty nor a dot. -/
def isStep (part : Text) : Bool :=
  (component? false part).isSome

/-- Whether the last part between slashes is a step, so that the path is not spelled as a
directory. -/
def endsInStep (parts : List Text) : Bool :=
  parts.getLast?.all isStep

variable {p q : Path} {ns : List Text}

lemma not_isStep_iff {part : Text} : ¬ isStep part ↔ part = [] ∨ part = ['.'] := by
  simp only [isStep, component?, Bool.false_eq_true, if_false]
  split_ifs <;> simp_all

/-- Parts that follow decide whether the last one is a step. -/
lemma endsInStep_cons {part : Text} {parts : List Text} (h : parts = [] → isStep part) :
    endsInStep (part :: parts) = endsInStep parts := by
  cases parts with
  | nil => exact h rfl
  | cons next parts => rw [endsInStep, endsInStep, List.getLast?_cons_cons]

/-- Every step but `..` is a name. -/
lemma filterMap_component?_of_ne_dots {parts : List Text} (h : ∀ part ∈ parts, part ≠ ['.', '.']) :
    parts.filterMap (component? false) = (parts.filter isStep).map .name := by
  induction parts with
  | nil => rfl
  | cons part parts ih =>
    rw [List.forall_mem_cons] at h
    have hpart : component? false part = if isStep part then some (.name part) else none := by
      simp only [isStep, component?, Bool.false_eq_true, if_false, if_neg h.1]
      split_ifs <;> simp_all
    rw [List.filterMap_cons, List.filter_cons, hpart]
    split_ifs
    · rw [List.map_cons, ← ih h.2]
    · exact ih h.2

/-- The steps are the parts that are written as components. -/
lemma map_text_filterMap_component? (parts : List Text) :
    (parts.filterMap (component? false)).map Component.text = parts.filter isStep := by
  have htext : ∀ part, (component? false part).map Component.text =
      if isStep part then some part else none := by
    intro part
    simp only [isStep, component?, Bool.false_eq_true, if_false]
    split_ifs <;> simp_all [Component.text]
  rw [List.map_filterMap, ← List.filterMap_eq_filter]
  refine List.filterMap_congr fun part _ => ?_
  rw [htext, Option.guard]

/-- A path that goes on from another one goes on from its steps. -/
lemma filter_isStep_append (h : q.components = p.components ++ ns.map .name) :
    (Text.splitOnChar '/' q.text).filter isStep =
      (Text.splitOnChar '/' p.text).filter isStep ++ ns := by
  have hsteps : ∀ p : Path, (Text.splitOnChar '/' p.text).filter isStep =
      p.steps.map Component.text :=
    fun p => (map_text_filterMap_component? _).symm
  have hnames : (ns.map Component.name).map Component.text = ns := by
    rw [List.map_map]
    exact List.map_id ns
  rw [hsteps, hsteps, steps_of_append h, List.map_append, hnames]

/-- A path with the components of a place leads there, and is direct. -/
lemma direct_of_components (h : p.components = .root :: ns.map .name) :
    p.Direct ∧ Disk.placeOf p = ns := by
  refine ⟨⟨?_, by simp [h]⟩, ?_⟩
  · rw [isAbsolute_iff_root_mem, h]
    exact List.mem_cons_self
  · rw [placeOf_eq, h, List.foldl_cons, foldl_placeStep_name]
    rfl

/-- The parts of a direct path between its slashes hold the names on the way to its place, and no
`..`. -/
lemma Direct.parts (h : p.Direct) :
    (Text.splitOnChar '/' p.text).filter isStep = Disk.placeOf p ∧
      (∀ part ∈ Text.splitOnChar '/' p.text, part ≠ ['.', '.']) ∧
      p.components = .root :: (Disk.placeOf p).map .name := by
  have hstraight := h.straight
  obtain ⟨t, rfl⟩ := isAbsolute_iff.mp h.isAbsolute
  rw [components_slash] at hstraight
  have hdots : ∀ part ∈ Text.splitOnChar '/' t, part ≠ ['.', '.'] := by
    rintro part hpart rfl
    exact hstraight (List.mem_cons_of_mem _ (List.mem_filterMap.mpr ⟨_, hpart, rfl⟩))
  have hcomponents := components_slash t
  rw [filterMap_component?_of_ne_dots hdots] at hcomponents
  have hplace := (direct_of_components hcomponents).2
  have hsplit : Text.splitOnChar '/' ('/' :: t) = [] :: Text.splitOnChar '/' t := by
    rw [Text.splitOnChar, if_pos rfl]
  rw [hsplit, List.filter_cons_of_neg (by decide), List.forall_mem_cons, hplace]
  exact ⟨rfl, ⟨by decide, hdots⟩, hcomponents⟩

/-- A direct path is the one of its place, up to its spelling. -/
lemma Direct.components_eq (h : p.Direct) :
    p.components = (atPlace (Disk.placeOf p)).components := by
  rw [h.parts.2.2, Path.components_atPlace (isPart_of_mem_placeOf p)]

end Path

namespace Disk

open AutoItServer.Path (atPlace IsPart isStep endsInStep)

variable {d : Disk} {p w : Path} {place : List Text} {f : File}

/-! ### Trees -/

/-- Each place holds one thing, is named from the root on, and stands in a directory. The working
directory is named from the root on as well. -/
structure IsTree (d : Disk) : Prop where
  nodup : (d.nodes.map Prod.fst).Nodup
  named : ∀ e ∈ d.nodes, e.1 ≠ [] ∧ ∀ n ∈ e.1, IsPart n
  closed : ∀ e ∈ d.nodes, d.isDirectoryAt e.1.dropLast
  home : ∀ place ∈ d.workingDirectory, ∀ n ∈ place, IsPart n

lemma isTree_empty : Disk.empty.IsTree where
  nodup := List.nodup_nil
  named _ he := absurd he List.not_mem_nil
  closed _ he := absurd he List.not_mem_nil
  home _ hplace := absurd hplace (Option.not_mem_none _)

@[simp] lemma isDirectoryAt_nil (d : Disk) : d.isDirectoryAt [] := by
  simp [isDirectoryAt, node?]

/-- What stands at a place other than the root is one of the nodes. -/
lemma mem_nodes_of_node? {n : Node} (hne : place ≠ []) (h : d.node? place = some n) :
    (place, n) ∈ d.nodes := by
  rw [node?_of_ne_nil d hne] at h
  obtain ⟨⟨q, m⟩, he, rfl⟩ := Option.map_eq_some_iff.mp h
  obtain rfl : q = place := by simpa using List.find?_some he
  exact List.mem_of_find?_eq_some he

/-- On a tree every node is found at its place. -/
lemma IsTree.node?_of_mem {n : Node} (h : d.IsTree) (he : (place, n) ∈ d.nodes) :
    d.node? place = some n := by
  have hne := (h.named _ he).1
  have hsome : (d.node? place).isSome := by
    rw [node?_of_ne_nil d hne, Option.isSome_map, List.find?_isSome]
    exact ⟨_, he, by simp⟩
  obtain ⟨m, hm⟩ := Option.isSome_iff_exists.mp hsome
  have hmem := mem_nodes_of_node? hne hm
  -- a place stands in the list once
  have hsame := List.inj_on_of_nodup_map h.nodup hmem he rfl
  rw [hm, (Prod.mk.inj hsame).2]

/-- On a tree the way down to a node is named. -/
lemma IsTree.isPart_below {n : Node} {names : List Text} (h : d.IsTree)
    (he : (place ++ names, n) ∈ d.nodes) :
    ∀ name ∈ names, IsPart name :=
  fun name hname => (h.named _ he).2 name (List.mem_append_right _ hname)

/-- On a tree a path names a place that is named from the root on. -/
lemma IsTree.isPart_of_placeFor? (h : d.IsTree) (hplace : d.placeFor? p = some place) :
    ∀ n ∈ place, IsPart n := by
  obtain ⟨start, hstart, rfl⟩ := Option.map_eq_some_iff.mp hplace
  have hparts : ∀ n ∈ start, IsPart n := by
    rw [startOf?] at hstart
    split_ifs at hstart
    · rw [← Option.some.inj hstart]
      exact List.forall_mem_nil _
    · exact h.home start hstart
  exact Path.isPart_of_mem_foldl (fun _ hn => Path.isPart_of_name_mem hn) hparts

/-- **Above a thing are directories.** -/
lemma IsTree.isDirectoryAt_above (h : d.IsTree) {above below : List Text} (hbelow : below ≠ [])
    (hsome : (d.node? (above ++ below)).isSome) : d.isDirectoryAt above := by
  induction below using List.reverseRecOn with
  | nil => exact absurd rfl hbelow
  | append_singleton below n ih =>
    rw [← List.append_assoc] at hsome
    obtain ⟨m, hm⟩ := Option.isSome_iff_exists.mp hsome
    have hparent := h.closed _ (mem_nodes_of_node? (by simp) hm)
    rw [List.dropLast_concat] at hparent
    cases below with
    | nil => rwa [List.append_nil] at hparent
    | cons k below => exact ih (by simp) (by rw [isDirectoryAt_iff.mp hparent]; rfl)

/-- Something stands above a thing. -/
lemma IsTree.isSome_above (h : d.IsTree) {above below : List Text}
    (hsome : (d.node? (above ++ below)).isSome) : (d.node? above).isSome := by
  by_cases hnil : below = []
  · rwa [hnil, List.append_nil] at hsome
  · rw [isDirectoryAt_iff.mp (h.isDirectoryAt_above hnil hsome)]
    rfl

/-! ### Changes -/

/-- Putting something at a place keeps a tree, if the place is in a directory and no directory is
lost. -/
lemma IsTree.set (h : d.IsTree) {n : Node} (hne : place ≠ []) (hparts : ∀ n ∈ place, IsPart n)
    (habove : d.isDirectoryAt place.dropLast) (hkeep : d.isDirectoryAt place → n = .directory) :
    (d.set place n).IsTree := by
  have hdir : ∀ q, d.isDirectoryAt q → (d.set place n).isDirectoryAt q := by
    intro q hq
    rw [isDirectoryAt_iff, node?_set]
    split_ifs with h0 hplace
    · rfl
    · rw [hkeep (hplace ▸ hq)]
    · exact isDirectoryAt_iff.mp hq
  have hnodes : ∀ e ∈ (d.set place n).nodes, e ∈ d.nodes ∨ e = (place, n) := by
    intro e he
    rcases List.mem_append.mp he with he | he
    · exact Or.inl (List.mem_of_mem_filter he)
    · exact Or.inr (List.mem_singleton.mp he)
  refine ⟨?_, fun e he => ?_, fun e he => ?_, h.home⟩
  · have hold : ((d.nodes.filter fun e => !(e.1 == place)).map Prod.fst).Nodup :=
      h.nodup.sublist (List.filter_sublist.map _)
    rw [Disk.set, List.map_append]
    refine List.nodup_append.mpr ⟨hold, List.nodup_singleton _, ?_⟩
    rintro q hq r hr rfl
    obtain rfl := List.mem_singleton.mp hr
    obtain ⟨e, he, hplace⟩ := List.mem_map.mp hq
    simp [hplace] at he
  · rcases hnodes e he with he | rfl
    · exact h.named e he
    · exact ⟨hne, hparts⟩
  · rcases hnodes e he with he | rfl
    · exact hdir _ (h.closed e he)
    · exact hdir _ habove

/-- Making directories changes nothing at places that are further down. -/
lemma node?_makeDirectories_of_length_lt {parts q : List Text}
    (hq : (place ++ parts).length < q.length) :
    (makeDirectories d place parts).node? q = d.node? q := by
  induction parts generalizing d place with
  | nil => rfl
  | cons part parts ih =>
    rw [makeDirectories, ih (by simpa [Nat.add_assoc, Nat.add_comm] using hq)]
    split_ifs
    · rfl
    · rw [node?_set, if_neg, if_neg]
      · rintro rfl
        simp at hq
      · rintro rfl
        simp at hq

/-- Making directories keeps a tree, if no file is in the way. -/
lemma IsTree.makeDirectories (h : d.IsTree) {parts : List Text}
    (hparts : ∀ n ∈ place ++ parts, IsPart n) (hplace : d.isDirectoryAt place)
    (hfree : ∀ k ≤ parts.length, ∀ f, d.node? (place ++ parts.take k) ≠ some (.file f)) :
    (makeDirectories d place parts).IsTree ∧
      (Disk.makeDirectories d place parts).isDirectoryAt (place ++ parts) := by
  induction parts generalizing d place with
  | nil => exact ⟨h, by rwa [List.append_nil]⟩
  | cons part parts ih =>
    rw [Disk.makeDirectories, List.append_cons place part parts]
    have hnext : ∀ n ∈ place ++ [part], IsPart n := fun n hn => hparts n (by
      rcases List.mem_append.mp hn with hn | hn
      · exact List.mem_append_left _ hn
      · rw [List.mem_singleton.mp hn]
        simp)
    have hparts' : ∀ n ∈ place ++ [part] ++ parts, IsPart n :=
      fun n hn => hparts n (by simpa using hn)
    have hfree' : ∀ k ≤ parts.length,
        ∀ f, d.node? (place ++ [part] ++ parts.take k) ≠ some (.file f) := by
      intro k hk f
      simpa using hfree (k + 1) (by simpa using hk) f
    split_ifs with hsome
    · refine ih h hparts' ?_ hfree'
      obtain ⟨n, hn⟩ := Option.isSome_iff_exists.mp hsome
      cases n with
      | directory => exact isDirectoryAt_iff.mpr hn
      | file f => exact absurd hn (by simpa using hfree' 0 (by simp) f)
    · refine ih (h.set (by simp) hnext ?_ fun _ => rfl) hparts' ?_ fun k hk f => ?_
      · rwa [List.dropLast_concat]
      · rw [isDirectoryAt_iff, node?_set, if_neg (by simp), if_pos rfl]
      · rw [node?_set]
        split_ifs
        · simp
        · simp
        · exact hfree' k hk f

/-- A place where a file can be written: it is no directory, and no file stands on the way to it. -/
def Writable (d : Disk) (place : List Text) : Prop :=
  place ≠ [] ∧ ¬ d.isDirectoryAt place ∧
    ∀ k < place.length, d.node? (place.take k) = none ∨ d.isDirectoryAt (place.take k)

instance (d : Disk) (place : List Text) : Decidable (d.Writable place) :=
  inferInstanceAs (Decidable (_ ∧ _))

/-- **Writing a file** where one can be written keeps a tree. -/
lemma isTree_write (h : d.IsTree) (hplace : d.placeFor? w = some place) (hw : d.Writable place)
    (f : File) : (d.write w f).IsTree := by
  obtain ⟨hne, hdir, hway⟩ := hw
  have hparts := h.isPart_of_placeFor? hplace
  have hlength : place.dropLast.length < place.length := by
    have := List.length_pos_iff.mpr hne
    rw [List.length_dropLast]
    omega
  have hmade : (makeDirectories d [] place.dropLast).IsTree ∧
      (makeDirectories d [] place.dropLast).isDirectoryAt ([] ++ place.dropLast) :=
    h.makeDirectories (fun n hn => hparts n (List.dropLast_subset _ hn)) (isDirectoryAt_nil d)
      fun k hk f => by
        have htake : place.dropLast.take k = place.take k := by
          rw [List.dropLast_eq_take, List.take_take, Nat.min_eq_left]
          rwa [List.length_dropLast] at hk
        rw [List.nil_append, htake]
        rcases hway k (by omega) with hnode | hnode
        · simp [hnode]
        · simp [isDirectoryAt_iff.mp hnode]
  rw [write_of_placeFor? hplace]
  refine hmade.1.set hne hparts (by simpa using hmade.2) fun hthere => absurd ?_ hdir
  rwa [isDirectoryAt_iff, node?_makeDirectories_of_length_lt (by simpa using hlength),
    ← isDirectoryAt_iff] at hthere

/-- **Deleting a file** keeps a tree. -/
lemma isTree_delete (h : d.IsTree) (w : Path) : (d.delete w).IsTree := by
  by_cases hfile : d.isFile w
  · obtain ⟨f, hf⟩ := Option.isSome_iff_exists.mp hfile
    obtain ⟨place, hplace, hnode⟩ := file?_eq_some_iff_locate?.mp hf
    have hgone := node?_delete_of_isFile hfile (placeFor?_of_locate? hplace)
    have hnodes : (d.delete w).nodes = d.nodes.filter fun e => !(e.1 == place) := by
      rw [delete, hplace]
      simp only [if_pos hfile]
    have hsub : ∀ e ∈ (d.delete w).nodes, e ∈ d.nodes := by
      intro e he
      rw [hnodes] at he
      exact List.mem_of_mem_filter he
    have hnodup : ((d.delete w).nodes.map Prod.fst).Nodup := by
      rw [hnodes]
      exact h.nodup.sublist (List.filter_sublist.map _)
    have hhome : ∀ place ∈ (d.delete w).workingDirectory, ∀ n ∈ place, IsPart n := by
      rw [workingDirectory_delete]
      exact h.home
    refine ⟨hnodup, fun e he => h.named e (hsub e he), fun e he => ?_, hhome⟩
    have hdir := isDirectoryAt_iff.mp (h.closed e (hsub e he))
    rw [isDirectoryAt_iff, hgone, if_neg, hdir]
    intro hw
    rw [hw, hnode] at hdir
    cases hdir
  · rwa [delete_of_not_isFile hfile]

/-! ### Steps -/

/-- Parts are followed one after the other. -/
lemma locateFrom?_append (d : Disk) (place parts parts' : List Text) :
    d.locateFrom? place (parts ++ parts') =
      (d.locateFrom? place parts).bind fun r => d.locateFrom? r parts' := by
  induction parts generalizing place with
  | nil => rfl
  | cons part parts ih =>
    rw [List.cons_append, locateFrom?, locateFrom?]
    split_ifs
    · rfl
    · exact ih _
    · exact ih _
    · exact ih _
    · rfl

/-- A step leads on from a directory only. -/
lemma isDirectoryAt_of_locateFrom? {parts r : List Text} (h : d.locateFrom? place parts = some r)
    (hne : parts ≠ []) : d.isDirectoryAt place := by
  cases parts with
  | nil => exact absurd rfl hne
  | cons part parts =>
    rw [locateFrom?] at h
    split_ifs at h with hdir
    all_goals simpa using hdir

/-- Parts that are no steps can be left out. -/
lemma locateFrom?_filter_isStep {parts r : List Text} (h : d.locateFrom? place parts = some r) :
    d.locateFrom? place (parts.filter isStep) = some r := by
  induction parts generalizing place with
  | nil => exact h
  | cons part parts ih =>
    rw [locateFrom?] at h
    by_cases hstep : isStep part
    · have hpart : ¬ (part = [] ∨ part = ['.']) := fun hpart => Path.not_isStep_iff.mpr hpart hstep
      rw [List.filter_cons_of_pos hstep, locateFrom?]
      rw [if_neg hpart] at h ⊢
      split_ifs at h ⊢
      · exact ih h
      · exact ih h
    · rw [if_pos (Path.not_isStep_iff.mp hstep)] at h
      rw [List.filter_cons_of_neg hstep]
      split_ifs at h
      exact ih h

/-- Parts that are no steps can be put in, but at the end behind a directory only. -/
lemma locateFrom?_of_filter_isStep {parts r : List Text}
    (h : d.locateFrom? place (parts.filter isStep) = some r)
    (hr : d.isDirectoryAt r ∨ endsInStep parts) : d.locateFrom? place parts = some r := by
  induction parts generalizing place with
  | nil => exact h
  | cons part parts ih =>
    have hrest (hnil : parts = [] → isStep part) : d.isDirectoryAt r ∨ endsInStep parts :=
      hr.imp_right fun hends => by rwa [Path.endsInStep_cons hnil] at hends
    rw [locateFrom?]
    by_cases hstep : isStep part
    · have hpart : ¬ (part = [] ∨ part = ['.']) := fun hpart => Path.not_isStep_iff.mpr hpart hstep
      rw [List.filter_cons_of_pos hstep, locateFrom?, if_neg hpart] at h
      rw [if_neg hpart]
      split_ifs at h ⊢
      · exact ih h (hrest fun _ => hstep)
      · exact ih h (hrest fun _ => hstep)
    · rw [List.filter_cons_of_neg hstep] at h
      rw [if_pos (Path.not_isStep_iff.mp hstep)]
      have hdir : d.isDirectoryAt place := by
        by_cases hnil : parts.filter isStep = []
        · -- nothing leads on, and the parts do not end in a step
          rw [hnil] at h
          obtain rfl := Option.some.inj h
          refine hr.resolve_right fun hends => ?_
          rw [endsInStep, List.getLast?_eq_some_getLast (List.cons_ne_nil part parts),
              Option.all_some]
            at hends
          have hmem := List.mem_filter.mpr ⟨List.getLast_mem (List.cons_ne_nil part parts), hends⟩
          rw [List.filter_cons_of_neg hstep, hnil] at hmem
          cases hmem
        · exact isDirectoryAt_of_locateFrom? h hnil
      rw [if_neg (by simp [hdir])]
      by_cases hnil : parts = []
      · subst hnil
        exact h
      · exact ih h (hrest fun h => absurd h hnil)

/-! ### Where paths lead -/

/-- On a tree, the place reached by parts without `..` is a directory, or the last part is a
step. -/
lemma locateFrom?_eq_some_iff (h : d.IsTree) {parts r : List Text} (hplace : (d.node? place).isSome)
    (hparts : ∀ part ∈ parts, part ≠ ['.', '.']) :
    d.locateFrom? place parts = some r ↔
      r = place ++ parts.filter isStep ∧
        (d.isDirectoryAt r ∨ endsInStep parts ∧ (d.node? r).isSome) := by
  induction parts generalizing place with
  | nil =>
    simp only [locateFrom?, Option.some.injEq, List.filter_nil, List.append_nil,
      eq_comm (a := place)]
    refine ⟨fun hr => ⟨hr, Or.inr ⟨rfl, hr ▸ hplace⟩⟩, And.left⟩
  | cons part parts ih =>
    rw [List.forall_mem_cons] at hparts
    have hthere : (d.isDirectoryAt r ∨ endsInStep (part :: parts) ∧ (d.node? r).isSome) →
        (d.node? r).isSome :=
      fun hr => hr.elim (fun hr => by rw [isDirectoryAt_iff.mp hr]; rfl) And.right
    rw [locateFrom?]
    by_cases hdir : d.isDirectoryAt place
    · rw [if_neg (by simp [hdir])]
      by_cases hstep : isStep part
      · have hpart : ¬ (part = [] ∨ part = ['.']) :=
          fun hpart => Path.not_isStep_iff.mpr hpart hstep
        rw [if_neg hpart, if_neg hparts.1, List.filter_cons_of_pos hstep,
          List.append_cons place part (parts.filter isStep)]
        rw [Path.endsInStep_cons fun _ => hstep] at hthere ⊢
        split_ifs with hsome
        · exact ih hsome hparts.2
        · refine ⟨fun hnone => (by cases hnone), ?_⟩
          rintro ⟨hr, hr'⟩
          exact absurd (h.isSome_above (hr ▸ hthere hr')) hsome
      · rw [if_pos (Path.not_isStep_iff.mp hstep), List.filter_cons_of_neg hstep,
          ih hplace hparts.2]
        refine and_congr_right fun hr => ?_
        by_cases hnil : parts = []
        · -- what is spelled as a directory is one
          rw [hnil, List.filter_nil, List.append_nil] at hr
          simp [hr, hdir]
        · rw [Path.endsInStep_cons fun h => absurd h hnil]
    · rw [if_pos (by simp [hdir])]
      refine ⟨fun hnone => (by cases hnone), ?_⟩
      rintro ⟨hr, hr'⟩
      refine absurd ?_ hdir
      by_cases hnil : (part :: parts).filter isStep = []
      · rw [hnil, List.append_nil] at hr
        rcases hr' with hr' | ⟨hends, -⟩
        · rwa [hr] at hr'
        · -- the last part is no step if none is
          rw [List.filter_eq_nil_iff] at hnil
          rw [endsInStep, List.getLast?_eq_some_getLast (by simp)] at hends
          exact absurd hends (hnil _ (List.getLast_mem _))
      · exact h.isDirectoryAt_above hnil (hr ▸ hthere hr')

variable (h : d.IsTree)

include h

/-- **Where a direct path leads** on a tree: to its place, if a directory stands there, or anything
else and the path is not spelled as a directory. -/
lemma locate?_eq_some_iff (hp : p.Direct) {r : List Text} :
    d.locate? p = some r ↔ r = placeOf p ∧
      (d.isDirectoryAt r ∨ endsInStep (Text.splitOnChar '/' p.text) ∧ (d.node? r).isSome) := by
  obtain ⟨hplace, hdots, -⟩ := hp.parts
  rw [locate?, startOf?_of_isAbsolute d hp.isAbsolute, Option.bind_some,
    locateFrom?_eq_some_iff h (by simp [node?]) hdots, hplace, List.nil_append]

/-- A direct path that leads to a file is spelled as one. -/
lemma endsInStep_of_locate? (hp : p.Direct) {r : List Text} (hr : d.locate? p = some r)
    (hnode : d.node? r = some (.file f)) : endsInStep (Text.splitOnChar '/' p.text) := by
  rcases ((locate?_eq_some_iff h hp).mp hr).2 with hdir | ⟨hends, -⟩
  · rw [isDirectoryAt_iff.mp hdir] at hnode
    cases hnode
  · exact hends

/-- **The file at a direct path** on a tree is the one at its place. -/
lemma file?_eq_some_iff (hp : p.Direct) :
    d.file? p = some f ↔
      endsInStep (Text.splitOnChar '/' p.text) ∧ d.node? (placeOf p) = some (.file f) := by
  rw [file?_eq_some_iff_locate?]
  constructor
  · rintro ⟨r, hr, hnode⟩
    refine ⟨endsInStep_of_locate? h hp hr hnode, ?_⟩
    rwa [← ((locate?_eq_some_iff h hp).mp hr).1]
  · rintro ⟨hends, hnode⟩
    exact ⟨_, (locate?_eq_some_iff h hp).mpr ⟨rfl, Or.inr ⟨hends, by rw [hnode]; rfl⟩⟩, hnode⟩

/-- Two trees have the same file at a direct path if they have the same one at its place. -/
lemma file?_congr {d' : Disk} (h' : d'.IsTree) (hp : p.Direct)
    (hnode : ∀ f, d'.node? (placeOf p) = some (.file f) ↔ d.node? (placeOf p) = some (.file f)) :
    d'.file? p = d.file? p := by
  ext f
  rw [file?_eq_some_iff h' hp, file?_eq_some_iff h hp, hnode]

end Disk

end AutoItServer
