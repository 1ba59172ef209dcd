import AutoItServer.Index.Basic
import AutoItServer.Proofs.Disk.Tree
import AutoItServer.Proofs.Path.Order

/-!
What the list of source files depends on.

The files below a root are looked for on the whole disk, but only source files count, and where they
are found is seen at their places alone.

* `Index.sourceNodes`: the source files on a disk.
* `discover_congr` (**source files decide**): on trees with the same source files the same ones are
  listed, if the roots are direct.
* `sourceNodes_write`, `sourceNodes_delete`: a file that is no source file changes nothing.
* `listed_of_mem_discover`: what is listed are direct paths of source files, spelled as files.
* `pairwise_discover`: the list is sorted.
-/

namespace AutoItServer

open AutoItServer.Path (atPlace IsPart isStep endsInStep)

/-! ### Settings -/

namespace Settings

variable {s s' : Settings} {p q : Path}

/-- Whether a path is one of a source file is seen at its components. -/
lemma isSourceFile_congr (h : p.components = q.components) :
    s.isSourceFile p = s.isSourceFile q := by
  simp only [isSourceFile, Path.extension?, Path.fileName?, h]

/-- Settings that agree on what shapes the symbols have the same options and the same source
files. -/
lemma eq_of_not_symbolsDiffer (h : s.symbolsDiffer s' = false) :
    s'.symbolOptions = s.symbolOptions ∧ s'.isSourceFile = s.isSourceFile ∧
    s'.maxFiles = s.maxFiles := by
  simp only [symbolsDiffer, Bool.or_eq_false_iff, bne_eq_false_iff_eq] at h
  obtain ⟨⟨⟨⟨hvariables, hregions⟩, hlines⟩, hextensions⟩, hfiles⟩ := h
  refine ⟨?_, ?_, hfiles.symm⟩
  · rw [symbolOptions, symbolOptions, hvariables, hregions, hlines]
  · funext p
    rw [isSourceFile, isSourceFile, hextensions]

end Settings

namespace Index

variable {d d' : Disk} {root p : Path} {place names : List Text} {roots : List Path}
  {settings : Settings}

/-! ### Files below a root -/

lemma below?_eq_some_iff {above : List Text} :
    below? above place = some names ↔ place = above ++ names := by
  induction above generalizing place with
  | nil => simp [below?]
  | cons a above ih =>
    cases place with
    | nil => simp [below?]
    | cons b place =>
      rw [below?, List.cons_append, List.cons.injEq]
      split_ifs with h
      · rw [ih]
        exact ⟨fun h' => ⟨h.symm, h'⟩, And.right⟩
      · exact ⟨fun h' => (by cases h'), fun h' => absurd h'.1.symm h⟩

/-- The path of a file as seen from a root that leads to a place. -/
def fileBelow? (root : Path) (place : List Text) (e : List Text × Node) : Option Path :=
  match e.2, below? place e.1 with
  | .file _, some names => if names.dropLast.any isHidden then none else some (under root names)
  | _, _ => none

lemma filesUnder_of_locate? (h : d.locate? root = some place) :
    filesUnder d root = d.nodes.filterMap (fileBelow? root place) := by
  rw [filesUnder, h]
  rfl

lemma filesUnder_of_not_locate? (h : d.locate? root = none) : filesUnder d root = [] := by
  rw [filesUnder, h]

/-- A file below the place is seen under the names on the way, if none of the directories is
hidden. -/
lemma fileBelow?_eq_some_iff {e : List Text × Node} :
    fileBelow? root place e = some p ↔
      ∃ f names, e = (place ++ names, .file f) ∧ (∀ n ∈ names.dropLast, ¬ isHidden n) ∧
        p = under root names := by
  constructor
  · intro h
    rw [fileBelow?] at h
    split at h
    · rename_i f names hnode hbelow
      split_ifs at h with hhidden
      refine ⟨f, names, Prod.ext (below?_eq_some_iff.mp hbelow) hnode, ?_, (Option.some.inj h).symm⟩
      simpa using hhidden
    · cases h
  · rintro ⟨f, names, rfl, hvisible, rfl⟩
    have hbelow : below? place (place ++ names) = some names := below?_eq_some_iff.mpr rfl
    rw [fileBelow?, hbelow]
    exact if_neg (by simpa using hvisible)

/-- Only files below the place are seen, under the names on the way. -/
lemma of_fileBelow? {e : List Text × Node} (h : fileBelow? root place e = some p) :
    ∃ f names, e = (place ++ names, .file f) ∧ p = under root names := by
  obtain ⟨f, names, he, -, hp⟩ := fileBelow?_eq_some_iff.mp h
  exact ⟨f, names, he, hp⟩

/-- Names that follow each other are no absolute path. -/
lemma not_isAbsolute_join (hne : names ≠ []) (h : ∀ n ∈ names, IsPart n) :
    ¬ (Path.mk (Text.join ['/'] names)).isAbsolute := by
  intro habsolute
  obtain ⟨t, ht⟩ := Path.isAbsolute_iff.mp habsolute
  have hsplit := Text.splitOnChar_join hne fun n hn => (h n hn).2.1
  have htext : Text.join ['/'] names = '/' :: t := congrArg Path.text ht
  rw [htext, Text.splitOnChar, if_pos rfl] at hsplit
  exact (h [] (hsplit ▸ List.mem_cons_self)).1 rfl

variable (hroot : root.components ≠ []) (hnames : ∀ n ∈ names, IsPart n)

include hroot hnames

/-- **What is below a root** has the components of the root and then the names on the way. -/
lemma components_under : (under root names).components = root.components ++ names.map .name := by
  by_cases hne : names = []
  · simp [under, hne]
  · rw [under, if_neg (by simpa using hne),
      Path.components_join hroot (not_isAbsolute_join hne hnames), Path.steps,
      Text.splitOnChar_join hne fun n hn => (hnames n hn).2.1,
      Path.filterMap_component?_of_isPart hnames]

/-- What is further down than a root is spelled as a file. -/
lemma endsInStep_under (hne : names ≠ []) :
    endsInStep (Text.splitOnChar '/' (under root names).text) := by
  obtain ⟨a, hjoin, -⟩ := Path.exists_join_eq hroot (not_isAbsolute_join hne hnames)
  rw [under, if_neg (by simpa using hne), hjoin, Text.splitOnChar_append,
    Text.splitOnChar_join hne fun n hn => (hnames n hn).2.1, endsInStep,
    List.getLast?_append_of_ne_nil _ hne, List.getLast?_eq_some_getLast hne]
  have hpart := hnames _ (List.getLast_mem hne)
  rw [Option.all_some, isStep, Path.component?_of_isPart hpart]
  rfl

omit hroot

/-- **What is below a direct root** is a direct path that leads to the place below. -/
lemma components_under_of_direct (hroot : root.Direct) :
    (under root names).components = .root :: (Disk.placeOf root ++ names).map .name := by
  rw [components_under hroot.components_ne_nil hnames, hroot.parts.2.2, List.map_append,
    List.cons_append]

omit hnames

/-! ### Source files decide -/

/-- Whether a node of the disk is a source file. -/
def isSourceNode (settings : Settings) (e : List Text × Node) : Bool :=
  e.2 != .directory && settings.isSourceFile (atPlace e.1)

/-- The source files on a disk, with their places. -/
def sourceNodes (d : Disk) (settings : Settings) : List (List Text × Node) :=
  d.nodes.filter (isSourceNode settings)

/-- The path of a file as seen from a root. A root that is spelled as a directory does not lead to a
file. -/
def seenFrom? (root : Path) (e : List Text × Node) : Option Path :=
  if e.1 = Disk.placeOf root ∧ ¬ endsInStep (Text.splitOnChar '/' root.text) then none
  else fileBelow? root (Disk.placeOf root) e

/-- A file is a source file under the path that a direct root gives it, if it is one at its
place. -/
lemma isSourceFile_of_fileBelow? {e : List Text × Node} (hroot : root.Direct)
    (hparts : ∀ n ∈ e.1, IsPart n) (h : fileBelow? root (Disk.placeOf root) e = some p) :
    settings.isSourceFile p = isSourceNode settings e := by
  obtain ⟨f, names, rfl, rfl⟩ := of_fileBelow? h
  have hnames : ∀ n ∈ names, IsPart n := fun n hn => hparts n (List.mem_append_right _ hn)
  have hcomponents := components_under_of_direct hnames hroot
  rw [isSourceNode, Settings.isSourceFile_congr
    (hcomponents.trans (Path.components_atPlace hparts).symm)]
  simp

/-- **The source files below a direct root** are seen at the source files on the disk alone. -/
lemma filter_filesUnder (h : d.IsTree) (hroot : root.Direct) :
    (filesUnder d root).filter settings.isSourceFile =
      (sourceNodes d settings).filterMap (seenFrom? root) := by
  rw [sourceNodes, List.filterMap_filter]
  cases hplace : d.locate? root with
  | none =>
    rw [filesUnder_of_not_locate? hplace, List.filter_nil, eq_comm, List.filterMap_eq_nil_iff]
    rintro ⟨q, n⟩ he
    split_ifs
    · by_contra hsome
      obtain ⟨p, hp⟩ := Option.ne_none_iff_exists'.mp hsome
      rw [seenFrom?] at hp
      split_ifs at hp with hspelled
      obtain ⟨f, names, he', -⟩ := of_fileBelow? hp
      obtain ⟨rfl, rfl⟩ := Prod.mk.inj he'
      have hnode := h.node?_of_mem he
      -- the root leads to the file, or to a directory above it
      refine absurd ((Disk.locate?_eq_some_iff h hroot).mpr ⟨rfl, ?_⟩) (by rw [hplace]; simp)
      by_cases hne : names = []
      · subst hne
        rw [List.append_nil] at hnode hspelled
        exact Or.inr ⟨by simpa using hspelled, by rw [hnode]; rfl⟩
      · exact Or.inl (h.isDirectoryAt_above hne (by rw [hnode]; rfl))
    · rfl
  | some place =>
    obtain ⟨rfl, -⟩ := (Disk.locate?_eq_some_iff h hroot).mp hplace
    rw [filesUnder_of_locate? hplace, List.filter_filterMap]
    refine List.filterMap_congr fun e he => ?_
    have hparts := (h.named e he).2
    cases hbelow : fileBelow? root (Disk.placeOf root) e with
    | none => simp [seenFrom?, hbelow]
    | some p =>
      obtain ⟨f, names, rfl, -⟩ := of_fileBelow? hbelow
      -- a root that leads to a file is spelled as one
      have hspelled : ¬ (Disk.placeOf root ++ names = Disk.placeOf root ∧
          ¬ endsInStep (Text.splitOnChar '/' root.text)) := by
        rintro ⟨hsame, hends⟩
        have hnode := h.node?_of_mem he
        rw [hsame] at hnode
        exact hends (Disk.endsInStep_of_locate? h hroot hplace hnode)
      rw [seenFrom?, if_neg hspelled, hbelow, Option.filter_some,
        isSourceFile_of_fileBelow? hroot hparts hbelow]

/-- **Source files decide** what is listed, on trees and for direct roots. -/
lemma discover_congr (h : d.IsTree) (h' : d'.IsTree) (hroots : ∀ r ∈ roots, r.Direct)
    (hnodes : sourceNodes d' settings = sourceNodes d settings) :
    discover d' roots settings = discover d roots settings := by
  have hfiles : (roots.flatMap (filesUnder d')).filter settings.isSourceFile =
      (roots.flatMap (filesUnder d)).filter settings.isSourceFile := by
    rw [List.filter_flatMap, List.filter_flatMap]
    refine List.flatMap_congr fun r hr => ?_
    rw [filter_filesUnder h (hroots r hr), filter_filesUnder h' (hroots r hr), hnodes]
  rw [discover, discover, hfiles]

/-! ### Files that do not count -/

/-- Putting something at a place changes no source files, if none was there and none comes there. -/
lemma sourceNodes_set {n : Node} (hold : ∀ e ∈ d.nodes, e.1 = place → ¬ isSourceNode settings e)
    (hnew : ¬ isSourceNode settings (place, n)) :
    sourceNodes (d.set place n) settings = sourceNodes d settings := by
  rw [sourceNodes, sourceNodes, Disk.set, List.filter_append, List.filter_cons_of_neg hnew,
    List.filter_nil, List.append_nil, List.filter_filter]
  refine List.filter_congr fun e he => ?_
  by_cases hplace : e.1 = place
  · simp [hold e he hplace]
  · simp [hplace]

/-- Making directories changes no source files. -/
lemma sourceNodes_makeDirectories (parts : List Text) :
    sourceNodes (d.makeDirectories place parts) settings = sourceNodes d settings := by
  induction parts generalizing d place with
  | nil => rfl
  | cons part parts ih =>
    rw [Disk.makeDirectories, ih]
    split_ifs with hsome
    · rfl
    · refine sourceNodes_set (fun e he hplace => absurd ?_ hsome) (by simp [isSourceNode])
      rw [Disk.node?_of_ne_nil d (by simp), Option.isSome_map, List.find?_isSome]
      exact ⟨e, he, by simp [hplace]⟩

/-- **Writing** a file that is no source file changes no source files. -/
lemma sourceNodes_write {w : Path} (hplace : d.placeFor? w = some place)
    (hw : ¬ settings.isSourceFile (atPlace place)) (f : File) :
    sourceNodes (d.write w f) settings = sourceNodes d settings := by
  have hnot : ∀ n, ¬ isSourceNode settings (place, n) := fun n => by simp [isSourceNode, hw]
  rw [Disk.write_of_placeFor? hplace, sourceNodes_set, sourceNodes_makeDirectories]
  · rintro ⟨q, n⟩ - rfl
    exact hnot n
  · exact hnot _

/-- **Deleting** a file that is no source file changes no source files. -/
lemma sourceNodes_delete {w : Path} (hplace : d.placeFor? w = some place)
    (hw : ¬ settings.isSourceFile (atPlace place)) :
    sourceNodes (d.delete w) settings = sourceNodes d settings := by
  rw [Disk.delete]
  split
  · rename_i place' hlocate
    obtain rfl := Option.some.inj (hplace.symm.trans (Disk.placeFor?_of_locate? hlocate))
    split_ifs
    · rw [sourceNodes, sourceNodes, List.filter_filter]
      refine List.filter_congr fun e _ => ?_
      by_cases he : e.1 = place
      · simp [isSourceNode, he, hw]
      · simp [he]
    · rfl
  · rfl

/-! ### What is listed -/

/-- A path as it is listed: a direct one, spelled as a file, of a source file. -/
structure Listed (settings : Settings) (p : Path) : Prop where
  direct : p.Direct
  endsInStep : endsInStep (Text.splitOnChar '/' p.text)
  isSourceFile : settings.isSourceFile p

lemma dropRepeated_sublist (paths : List Path) : (dropRepeated paths).Sublist paths := by
  fun_induction dropRepeated paths with
  | case1 p q rest _ ih => exact ih.trans ((List.sublist_cons_self q rest).cons_cons p)
  | case2 p q rest _ ih => exact ih.cons_cons p
  | case3 => exact List.Sublist.refl _

/-- **What is listed** on a tree, below direct roots. -/
lemma listed_of_mem_discover (h : d.IsTree) (hroots : ∀ r ∈ roots, r.Direct)
    (hp : p ∈ discover d roots settings) : Listed settings p := by
  have hmem := (dropRepeated_sublist _).subset (List.mem_of_mem_take hp)
  obtain ⟨hmem, hsource⟩ := List.mem_filter.mp (List.mem_mergeSort.mp hmem)
  obtain ⟨root, hroot, hmem⟩ := List.mem_flatMap.mp hmem
  have hdirect := hroots root hroot
  cases hplace : d.locate? root with
  | none =>
    rw [filesUnder_of_not_locate? hplace] at hmem
    cases hmem
  | some place =>
    obtain ⟨rfl, -⟩ := (Disk.locate?_eq_some_iff h hdirect).mp hplace
    rw [filesUnder_of_locate? hplace] at hmem
    obtain ⟨e, he, hbelow⟩ := List.mem_filterMap.mp hmem
    obtain ⟨f, names, rfl, rfl⟩ := of_fileBelow? hbelow
    have hnames := h.isPart_below he
    refine ⟨(Path.direct_of_components (components_under_of_direct hnames hdirect)).1, ?_, hsource⟩
    by_cases hne : names = []
    · subst hne
      have hnode := h.node?_of_mem he
      rw [List.append_nil] at hnode
      exact Disk.endsInStep_of_locate? h hdirect hplace hnode
    · exact endsInStep_under hdirect.components_ne_nil hnames hne

/-- A single source file is listed. -/
lemma discover_singleton (h : (roots.flatMap (filesUnder d)).filter settings.isSourceFile = [p])
    (hfiles : 0 < settings.maxFiles) : discover d roots settings = [p] := by
  have hone : dropRepeated [p] = [p] := by simp [dropRepeated]
  rw [discover, h, List.mergeSort_singleton, hone]
  exact List.take_of_length_le hfiles

/-- **The list is sorted.** -/
lemma pairwise_discover (d : Disk) (roots : List Path) (settings : Settings) :
    (discover d roots settings).Pairwise fun p q => p.le q :=
  ((List.pairwise_mergeSort Path.le_trans Path.le_total _).sublist (dropRepeated_sublist _)).sublist
    (List.take_sublist _ _)

end Index

end AutoItServer
