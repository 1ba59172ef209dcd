import AutoItServer.Proofs.Index.Discover
import Mathlib.Data.List.Sort

/-!
The list of source files is the sorted union of the roots.

What lies below a root is said of paths: their components are those of the root and then the names
on the way. A root with `..` gives its files paths with `..`, and these are other paths than those
of another root.

* `Path.Precedes`: the strict order of paths, by components.
* `Index.SourceBelow`, `Index.IsSource`: the source files at or below a root, and at or below some
  root.
* `Index.Covers`: the roots lie at or below others, outside of hidden directories.
* `map_components_discover`: the roots count through the source files below them.
* `discover_sorted_union` (**sorted union**): the first source files in the order of paths are
  listed, and roots that cover each other list the same ones.
-/

namespace AutoItServer

/-! ### The strict order of paths -/

namespace Path

variable {p q r : Path}

/-- The path comes before the other one, and is not the same. -/
def Precedes (p q : Path) : Prop :=
  p.le q ∧ ¬ p.same q

instance (p q : Path) : Decidable (p.Precedes q) :=
  inferInstanceAs (Decidable (_ ∧ _))

/-- Between a path and the same one stand no other paths. -/
lemma same_of_le_of_le (hpq : p.le q) (hqr : q.le r) (hpr : p.same r) : p.same q := by
  rw [same_iff] at hpr ⊢
  rw [le, ← hpr] at hqr
  exact componentsLe_antisymm hpq hqr

/-- **A list in strict order is known by the components in it.** -/
lemma map_components_eq_of_pairwise {ps qs : List Path} (hps : ps.Pairwise Precedes)
    (hqs : qs.Pairwise Precedes) (hmem : ∀ cs, cs ∈ ps.map components ↔ cs ∈ qs.map components) :
    ps.map components = qs.map components := by
  have hsorted : ∀ {ps : List Path}, ps.Pairwise Precedes →
      (ps.map components).Pairwise fun as bs => componentsLe as bs ∧ as ≠ bs := by
    intro ps hps
    exact List.pairwise_map.mpr (hps.imp fun h => ⟨h.1, fun heq => h.2 (same_iff.mpr heq)⟩)
  have hantisymm : Std.Antisymm fun as bs : List Component => componentsLe as bs ∧ as ≠ bs :=
    ⟨fun _ _ hab hba => componentsLe_antisymm hab.1 hba.1⟩
  have hirrefl : Std.Irrefl fun as bs : List Component => componentsLe as bs ∧ as ≠ bs :=
    ⟨fun _ h => h.2 rfl⟩
  exact (hsorted hps).eq_of_mem_iff (hsorted hqs) hmem

end Path

namespace Index

variable {d : Disk} {root p q : Path} {place names : List Text} {roots roots' paths : List Path}
  {settings : Settings}

/-! ### Repeated paths -/

/-- A list in order is in strict order when repetitions are removed. -/
lemma pairwise_dropRepeated (h : paths.Pairwise fun p q => p.le q) :
    (dropRepeated paths).Pairwise Path.Precedes := by
  fun_induction dropRepeated paths with
  | case1 p q rest _ ih => exact ih (h.sublist ((List.sublist_cons_self q rest).cons_cons p))
  | case2 p q rest hsame ih =>
    obtain ⟨hp, hrest⟩ := List.pairwise_cons.mp h
    refine List.pairwise_cons.mpr ⟨fun r hr => ?_, ih hrest⟩
    have hmem := (dropRepeated_sublist (q :: rest)).subset hr
    refine ⟨hp r hmem, fun hpr => hsame ?_⟩
    rcases List.mem_cons.mp hmem with rfl | hmem
    · exact hpr
    · exact Path.same_of_le_of_le (hp q List.mem_cons_self)
        ((List.pairwise_cons.mp hrest).1 r hmem) hpr
  | case3 paths hpaths =>
    cases paths with
    | nil => exact List.Pairwise.nil
    | cons p paths =>
      cases paths with
      | nil => exact List.pairwise_singleton _ p
      | cons q rest => exact absurd rfl (hpaths p q rest)

/-- No path gets lost when repetitions are removed. -/
lemma exists_mem_dropRepeated (h : p ∈ paths) : ∃ q ∈ dropRepeated paths, q.same p := by
  fun_induction dropRepeated paths generalizing p with
  | case1 r q rest hsame ih =>
    rcases List.mem_cons.mp h with rfl | h
    · exact ih List.mem_cons_self
    · rcases List.mem_cons.mp h with rfl | h
      · obtain ⟨s, hs, hsr⟩ := ih List.mem_cons_self
        exact ⟨s, hs, Path.same_trans hsr hsame⟩
      · exact ih (List.mem_cons_of_mem _ h)
  | case2 r q rest _ ih =>
    rcases List.mem_cons.mp h with rfl | h
    · exact ⟨p, List.mem_cons_self, Path.same_iff.mpr rfl⟩
    · obtain ⟨s, hs, hsp⟩ := ih h
      exact ⟨s, List.mem_cons_of_mem _ hs, hsp⟩
  | case3 => exact ⟨p, h, Path.same_iff.mpr rfl⟩

/-! ### Files below a root -/

/-- A file below a root is found at its path. -/
lemma file?_under {f : File} (h : d.IsTree) (hroot : d.locate? root = some place)
    (he : (place ++ names, .file f) ∈ d.nodes) : d.file? (under root names) = some f := by
  have hnode := h.node?_of_mem he
  suffices hlocate : ∃ r, d.locate? (under root names) = some r ∧ d.node? r = some (.file f) by
    obtain ⟨r, hr, hfile⟩ := hlocate
    rw [Disk.file?, hr, Option.bind_some, hfile]
  by_cases hne : names = []
  · subst hne
    exact ⟨place, hroot, by rwa [List.append_nil] at hnode⟩
  · obtain ⟨start, hstart, hfrom⟩ := Option.bind_eq_some_iff.mp hroot
    have hdir := Disk.components_ne_nil_of_locate? hroot
    have hnames := h.isPart_below he
    have hcomponents := components_under hdir hnames
    -- every name on the way down is one of a directory
    have hdirs : ∀ k < names.length, d.isDirectoryAt (place ++ names.take k) := by
      intro k hk
      have hrest : names.drop k ≠ [] := by simpa using hk
      refine h.isDirectoryAt_above hrest ?_
      rw [List.append_assoc, List.take_append_drop, hnode]
      rfl
    obtain ⟨r, hr, hfile⟩ :=
      Option.bind_eq_some_iff.mp ((Disk.locateFrom?_file_iff hnames place f).mpr ⟨hdirs, hnode⟩)
    refine ⟨r, ?_, hfile⟩
    rw [Disk.locate?, Disk.startOf?_of_append hdir hcomponents, hstart, Option.bind_some]
    refine Disk.locateFrom?_of_filter_isStep ?_ (Or.inr (endsInStep_under hdir hnames hne))
    rw [Path.filter_isStep_append hcomponents, Disk.locateFrom?_append,
      Disk.locateFrom?_filter_isStep hfrom]
    exact hr

/-! ### Source files below roots -/

/-- A source file at or below a root: the root leads somewhere, the path leads to a file with one of
the extensions of source files, and no directory below the root and above the file is hidden. -/
structure SourceBelow (d : Disk) (settings : Settings) (root p : Path) : Prop where
  contains : d.contains root
  isFile : d.isFile p
  extension : ∃ ext, p.extension? = some ext ∧
    ∃ e ∈ settings.fileExtensions, Text.sameIgnoringCase e ext
  below : ∃ names : List Text, p.components = root.components ++ names.map .name ∧
    ∀ n ∈ names.dropLast, n.head? ≠ some '.'

/-- A source file at or below some root. -/
def IsSource (d : Disk) (settings : Settings) (roots : List Path) (p : Path) : Prop :=
  ∃ root ∈ roots, SourceBelow d settings root p

lemma isSourceFile_iff :
    settings.isSourceFile p ↔
      ∃ ext, p.extension? = some ext ∧ ∃ e ∈ settings.fileExtensions,
        Text.sameIgnoringCase e ext := by
  rw [Settings.isSourceFile]
  cases p.extension? <;> simp

lemma isHidden_iff {name : Text} : isHidden name ↔ name.head? = some '.' := by
  rw [isHidden, beq_iff_eq]

/-- What is listed below a root lies below it. -/
lemma sourceBelow_of_mem (h : d.IsTree) (hp : p ∈ filesUnder d root)
    (hsource : settings.isSourceFile p) :
    SourceBelow d settings root p := by
  cases hroot : d.locate? root with
  | none =>
    rw [filesUnder_of_not_locate? hroot] at hp
    cases hp
  | some place =>
    rw [filesUnder_of_locate? hroot] at hp
    obtain ⟨e, he, hseen⟩ := List.mem_filterMap.mp hp
    obtain ⟨f, names, rfl, hvisible, rfl⟩ := fileBelow?_eq_some_iff.mp hseen
    have hnames := h.isPart_below he
    exact {
      contains := by rw [Disk.contains, hroot]; rfl
      isFile := by rw [Disk.isFile, file?_under h hroot he]; rfl
      extension := isSourceFile_iff.mp hsource
      below := ⟨names, components_under (Disk.components_ne_nil_of_locate? hroot) hnames,
        fun n hn hdot => hvisible n hn (isHidden_iff.mpr hdot)⟩ }

/-- What lies below a root is listed below it, perhaps in another spelling. -/
lemma SourceBelow.exists_mem (hp : SourceBelow d settings root p) (h : d.IsTree) :
    ∃ q ∈ filesUnder d root, q.same p := by
  obtain ⟨place, hroot⟩ := Option.isSome_iff_exists.mp hp.contains
  obtain ⟨f, hfile⟩ := Option.isSome_iff_exists.mp hp.isFile
  obtain ⟨names, hcomponents, hvisible⟩ := hp.below
  have hnode := Disk.node?_of_file? hfile
    (Disk.placeFor?_of_append (Disk.placeFor?_of_locate? hroot) hcomponents)
  have hne : place ++ names ≠ [] := by
    intro hnil
    rw [hnil] at hnode
    cases hnode
  have he := Disk.mem_nodes_of_node? hne hnode
  have hnames := h.isPart_below he
  refine ⟨under root names, ?_, ?_⟩
  · rw [filesUnder_of_locate? hroot]
    refine List.mem_filterMap.mpr ⟨_, he, fileBelow?_eq_some_iff.mpr ⟨f, names, rfl, ?_, rfl⟩⟩
    exact fun n hn hhidden => hvisible n hn (isHidden_iff.mp hhidden)
  · rw [Path.same_iff, components_under (Disk.components_ne_nil_of_locate? hroot) hnames,
      hcomponents]

/-! ### The sorted union -/

/-- All source files below the roots, sorted by path, each once. -/
def allSources (d : Disk) (roots : List Path) (settings : Settings) : List Path :=
  dropRepeated (((roots.flatMap (filesUnder d)).filter settings.isSourceFile).mergeSort Path.le)

lemma discover_eq_take : discover d roots settings =
    (allSources d roots settings).take settings.maxFiles :=
  rfl

lemma pairwise_allSources : (allSources d roots settings).Pairwise Path.Precedes :=
  pairwise_dropRepeated (List.pairwise_mergeSort Path.le_trans Path.le_total _)

lemma isSource_of_mem_allSources (h : d.IsTree) (hp : p ∈ allSources d roots settings) :
    IsSource d settings roots p := by
  have hmem := List.mem_mergeSort.mp ((dropRepeated_sublist _).subset hp)
  obtain ⟨hmem, hsource⟩ := List.mem_filter.mp hmem
  obtain ⟨root, hroot, hmem⟩ := List.mem_flatMap.mp hmem
  exact ⟨root, hroot, sourceBelow_of_mem h hmem hsource⟩

lemma IsSource.exists_mem_allSources (hp : IsSource d settings roots p) (h : d.IsTree) :
    ∃ q ∈ allSources d roots settings, q.same p := by
  obtain ⟨root, hroot, hp⟩ := hp
  obtain ⟨q, hq, hqp⟩ := hp.exists_mem h
  have hsource : settings.isSourceFile q := by
    rw [Settings.isSourceFile_congr (Path.same_iff.mp hqp)]
    exact isSourceFile_iff.mpr hp.extension
  have hmem := List.mem_filter.mpr ⟨List.mem_flatMap.mpr ⟨root, hroot, hq⟩, hsource⟩
  obtain ⟨r, hr, hrq⟩ := exists_mem_dropRepeated (List.mem_mergeSort.mpr hmem)
  exact ⟨r, hr, Path.same_trans hrq hqp⟩

/-- **The roots count through the source files below them.** -/
lemma map_components_discover (h : d.IsTree)
    (hsources : ∀ p, IsSource d settings roots' p ↔ IsSource d settings roots p) :
    (discover d roots' settings).map Path.components =
      (discover d roots settings).map Path.components := by
  have hsub : ∀ {roots roots' : List Path},
      (∀ p, IsSource d settings roots' p → IsSource d settings roots p) →
      ∀ cs ∈ (allSources d roots' settings).map Path.components,
        cs ∈ (allSources d roots settings).map Path.components := by
    intro roots roots' himp cs hcs
    obtain ⟨p, hp, rfl⟩ := List.mem_map.mp hcs
    obtain ⟨q, hq, hqp⟩ := (himp p (isSource_of_mem_allSources h hp)).exists_mem_allSources h
    exact List.mem_map.mpr ⟨q, hq, Path.same_iff.mp hqp⟩
  rw [discover_eq_take, discover_eq_take, List.map_take, List.map_take,
    Path.map_components_eq_of_pairwise pairwise_allSources pairwise_allSources fun cs =>
      ⟨hsub (fun p => (hsources p).mp) cs, hsub (fun p => (hsources p).mpr) cs⟩]

/-! ### Roots that overlap -/

/-- Every root of the second list that leads somewhere is one of the first list or lies below it,
outside of hidden directories, and that one leads somewhere too. The blank path does not, though the
relative paths go on from its components. -/
def Covers (d : Disk) (roots roots' : List Path) : Prop :=
  ∀ r ∈ roots', d.contains r → ∃ root ∈ roots, d.contains root ∧ ∃ names : List Text,
    r.components = root.components ++ names.map .name ∧ ∀ n ∈ names, n.head? ≠ some '.'

lemma covers_of_subset (h : roots' ⊆ roots) : Covers d roots roots' :=
  fun r hr hcontains => ⟨r, h hr, hcontains, [], by simp, by simp⟩

/-- **What lies below covered roots** lies below the roots that cover them. -/
lemma IsSource.of_covers (hcovers : Covers d roots roots') (hp : IsSource d settings roots' p) :
    IsSource d settings roots p := by
  obtain ⟨r, hr, hp⟩ := hp
  obtain ⟨root, hroot, hcontains, above, habove, hvisible⟩ := hcovers r hr hp.contains
  obtain ⟨names, hcomponents, hnames⟩ := hp.below
  refine ⟨root, hroot, { hp with contains := hcontains, below := ⟨above ++ names, ?_, ?_⟩ }⟩
  · rw [hcomponents, habove, List.map_append, List.append_assoc]
  · intro n hn
    by_cases hne : names = []
    · rw [hne, List.append_nil] at hn
      exact hvisible n (List.dropLast_subset _ hn)
    · rw [List.dropLast_append_of_ne_nil hne] at hn
      exact (List.mem_append.mp hn).elim (hvisible n) (hnames n)

/-- **Sorted union**: on a tree, the first source files below the roots are listed, in the strict
order of paths. The roots can be reordered and repeated, and roots can be left out that lie below
others. -/
theorem discover_sorted_union (h : d.IsTree) (roots : List Path) (settings : Settings) :
    (∃ all : List Path, all.Pairwise Path.Precedes ∧ (∀ p ∈ all, IsSource d settings roots p) ∧
      (∀ p, IsSource d settings roots p → ∃ q ∈ all, q.same p) ∧
      discover d roots settings = all.take settings.maxFiles) ∧
    (∀ roots', (∀ r, r ∈ roots' ↔ r ∈ roots) →
      (discover d roots' settings).map Path.components =
        (discover d roots settings).map Path.components) ∧
    ∀ roots', Covers d roots roots' → Covers d roots' roots →
      (discover d roots' settings).map Path.components =
        (discover d roots settings).map Path.components := by
  have hcovered : ∀ roots', Covers d roots roots' → Covers d roots' roots →
      (discover d roots' settings).map Path.components =
        (discover d roots settings).map Path.components :=
    fun roots' h1 h2 => map_components_discover h fun p =>
      ⟨IsSource.of_covers h1, IsSource.of_covers h2⟩
  refine ⟨⟨allSources d roots settings, pairwise_allSources, fun p => isSource_of_mem_allSources h,
    fun p hp => hp.exists_mem_allSources h, rfl⟩, fun roots' hroots => ?_, hcovered⟩
  exact hcovered roots' (covers_of_subset fun r => (hroots r).mp)
    (covers_of_subset fun r => (hroots r).mpr)

/-- A workspace with a directory in it and a hidden one, and itself as the working directory. -/
def nestedWorkspace : Disk :=
  ((({ Disk.empty with workingDirectory := some ["w".toList] }).write (.ofString "/w/lib/B.AU3")
    ⟨[], 0⟩).write (.ofString "/w/.git/c.au3") ⟨[], 0⟩).write (.ofString "lib.au3") ⟨[], 0⟩

lemma isTree_nestedWorkspace : nestedWorkspace.IsTree := by
  have hstart : ({ Disk.empty with workingDirectory := some ["w".toList] } : Disk).IsTree :=
    { Disk.isTree_empty with
      home := by
        rintro place hplace n hn
        obtain rfl := Option.mem_some_iff.mp hplace
        obtain rfl := List.mem_singleton.mp hn
        exact ⟨by decide, by decide, by decide, by decide⟩ }
  have hlib := Disk.isTree_write hstart (w := .ofString "/w/lib/B.AU3") rfl (by decide) ⟨[], 0⟩
  have hgit := Disk.isTree_write hlib (w := .ofString "/w/.git/c.au3") rfl (by decide) ⟨[], 0⟩
  exact Disk.isTree_write hgit (w := .ofString "lib.au3") rfl (by decide) ⟨[], 0⟩

/-- The workspace, with a directory in it and the hidden one as roots of their own, and the first
two seen from the working directory. -/
def nestedRoots : List Path :=
  [.ofString "/w/lib/", .ofString "/w", .ofString "/w/.git", .ofString "./lib", .ofString "."]

/-- The same roots without those that lie in others, with one twice and two that lead nowhere. -/
def otherRoots : List Path :=
  [.ofString "/w/./.git", .ofString "", .ofString "/w", .ofString "/v", .ofString ".//",
    .ofString "/w"]

lemma covers_otherRoots : Covers nestedWorkspace nestedRoots otherRoots := by
  intro r hr hcontains
  simp only [otherRoots, List.mem_cons, List.not_mem_nil, or_false] at hr
  rcases hr with rfl | rfl | rfl | rfl | rfl | rfl
  · exact ⟨.ofString "/w/.git", by decide, by decide, [], by decide, by simp⟩
  · exact absurd hcontains (by decide)
  · exact ⟨.ofString "/w", by decide, by decide, [], by decide, by simp⟩
  · exact absurd hcontains (by decide)
  · exact ⟨.ofString ".", by decide, by decide, [], by decide, by simp⟩
  · exact ⟨.ofString "/w", by decide, by decide, [], by decide, by simp⟩

lemma covers_nestedRoots : Covers nestedWorkspace otherRoots nestedRoots := by
  intro r hr hcontains
  simp only [nestedRoots, List.mem_cons, List.not_mem_nil, or_false] at hr
  rcases hr with rfl | rfl | rfl | rfl | rfl
  · exact ⟨.ofString "/w", by decide, by decide, ["lib".toList], by decide, by decide⟩
  · exact ⟨.ofString "/w", by decide, by decide, [], by decide, by simp⟩
  · exact ⟨.ofString "/w/./.git", by decide, by decide, [], by decide, by simp⟩
  · exact ⟨.ofString ".//", by decide, by decide, ["lib".toList], by decide, by decide⟩
  · exact ⟨.ofString ".//", by decide, by decide, [], by decide, by simp⟩

/-- A file in a directory comes before the one beside it whose name goes on with a dot, and both are
listed again as seen from the working directory. -/
theorem discover_sorted_union_nested :
    nestedWorkspace.IsTree ∧ Covers nestedWorkspace otherRoots nestedRoots ∧
      Covers nestedWorkspace nestedRoots otherRoots ∧
      Path.Precedes (.ofString "/w/lib/B.AU3") (.ofString "/w/lib.au3") ∧
      IsSource nestedWorkspace .standard otherRoots (.ofString "/w/lib/B.AU3") ∧
      IsSource nestedWorkspace .standard otherRoots (.ofString "./lib.au3") ∧
      (∃ all : List Path, all.Pairwise Path.Precedes ∧
        (∃ q ∈ all, q.same (.ofString "/w/lib/B.AU3")) ∧
        (∃ q ∈ all, q.same (.ofString "./lib.au3")) ∧
        discover nestedWorkspace otherRoots .standard = all.take 5000) ∧
      (discover nestedWorkspace nestedRoots .standard).map Path.components =
        (discover nestedWorkspace otherRoots .standard).map Path.components := by
  have hsource : IsSource nestedWorkspace .standard otherRoots (.ofString "/w/lib/B.AU3") := by
    refine ⟨.ofString "/w", by decide, by decide, by decide,
      ⟨"AU3".toList, by decide, "au3".toList, by decide, by decide⟩,
      ⟨["lib".toList, "B.AU3".toList], by decide, by decide⟩⟩
  have hrelative : IsSource nestedWorkspace .standard otherRoots (.ofString "./lib.au3") := by
    refine ⟨.ofString ".//", by decide, by decide, by decide,
      ⟨"au3".toList, by decide, "au3".toList, by decide, by decide⟩,
      ⟨["lib.au3".toList], by decide, by decide⟩⟩
  obtain ⟨⟨all, hsorted, -, hall, hlisted⟩, -, hcovered⟩ :=
    discover_sorted_union isTree_nestedWorkspace otherRoots .standard
  refine ⟨isTree_nestedWorkspace, covers_nestedRoots, covers_otherRoots, by decide,
    hsource, hrelative, ⟨all, hsorted, hall _ hsource, hall _ hrelative, hlisted⟩, ?_⟩
  exact hcovered nestedRoots covers_nestedRoots covers_otherRoots

end Index

end AutoItServer
