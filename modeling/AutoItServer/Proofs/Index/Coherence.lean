import AutoItServer.Proofs.Editor.Coherence
import AutoItServer.Proofs.Index.Discover
import AutoItServer.Uri.Reader

/-!
The workspace index stays right through a session.

A build takes over the symbols that the index has, and reads other files through a cache of its own.
Both may be outdated as long as the editor has not heard of a change of the disk.

* `Index.freshEntry`, `Index.freshListing`: a file, and all source files of a workspace, with the
  symbols they have on disk.
* `Session.pending`: the changed files that the editor has not heard of.
* `Session.Orderly`: changes of the disk are named by absolute paths, files are written where there
  can be one, folders have no `..` in their paths, and the index is built from the folders and
  settings of the state.
* `Tracked` (**the invariant**): entries are fresh unless a change of their file is pending, and a
  complete index lists what is there unless a change of some source file is pending.
* `tracked_step`, `tracked_run`: every event keeps the invariant, so it holds in all runs.
* `index_eq_fresh` (**coherence**): whenever no change is pending, the entries are fresh, a complete
  index is the fresh listing, and every build returns it.
* `index_stale_behind_parent`: with a `..` in the path of a folder, an entry may be outdated for
  good.
-/

namespace AutoItServer

open AutoItServer.Path (atPlace endsInStep)

namespace Index

variable {d d' : Disk} {settings settings' : Settings} {p q : Path} {roots : List Path} {i : Index}
  {cache : FileCache}

/-! ### Fresh entries -/

/-- A file with the symbols it has on disk. -/
def freshEntry (d : Disk) (settings : Settings) (p : Path) : IndexedFile :=
  Index.empty.entryOf d settings .empty p

/-- The source files of a workspace, each with the symbols it has on disk. -/
def freshListing (d : Disk) (roots : List Path) (settings : Settings) : List IndexedFile :=
  (discover d roots settings).map (freshEntry d settings)

lemma freshEntry_eq (d : Disk) (settings : Settings) (p : Path) :
    freshEntry d settings p =
      (p, ((d.text? p).map (symbolsOf settings.symbolOptions)).getD []) := by
  rw [← FileCache.peek?_of_honest (FileCache.honest_empty d p)]
  rfl

/-- The symbols of a file depend on the file at its path and on the options for symbols. -/
lemma freshEntry_congr (hfile : d'.file? p = d.file? p)
    (hoptions : settings'.symbolOptions = settings.symbolOptions) :
    freshEntry d' settings' p = freshEntry d settings p := by
  rw [freshEntry_eq, freshEntry_eq, Disk.text?, Disk.text?, hfile, hoptions]

/-- On a tree, listed paths with the same components lead to the same file. -/
lemma file?_of_listed (h : d.IsTree) (hp : Listed settings p) (hq : Listed settings q)
    (hsame : p.components = q.components) : d.file? p = d.file? q := by
  have hplace : Disk.placeOf p = Disk.placeOf q := by rw [Path.placeOf_eq, Path.placeOf_eq, hsame]
  ext f
  rw [Disk.file?_eq_some_iff h hp.direct, Disk.file?_eq_some_iff h hq.direct, hplace]
  simp [hp.endsInStep, hq.endsInStep]

/-- Settings that agree on what shapes the symbols list the same files. -/
lemma discover_of_not_symbolsDiffer (h : settings.symbolsDiffer settings' = false) :
    discover d roots settings' = discover d roots settings := by
  obtain ⟨-, hsource, hfiles⟩ := Settings.eq_of_not_symbolsDiffer h
  rw [discover, discover, hsource, hfiles]

/-! ### Builds -/

/-- What a build takes over is an entry for the same path. -/
lemma mem_of_find? {symbols : List IndexedSymbol} (h : i.find? p = some symbols) :
    ∃ x ∈ i.files, x.1.components = p.components ∧ x.2 = symbols := by
  obtain ⟨x, hx, rfl⟩ := Option.map_eq_some_iff.mp h
  have hsame : x.1.same p := by simpa using List.find?_some hx
  exact ⟨x, List.mem_of_find?_eq_some hx, Path.same_iff.mp hsame, rfl⟩

/-- **An entry that a build makes** is fresh, if the entries it may take over are and the kept text
is honest. -/
lemma entryOf_eq_freshEntry (h : d.IsTree) (hlisted : ∀ x ∈ i.files, Listed settings x.1)
    (hp : Listed settings p) (hhonest : cache.Honest d p)
    (hfresh : ∀ x ∈ i.files, x.1.components = p.components → x = freshEntry d settings x.1) :
    i.entryOf d settings cache p = freshEntry d settings p := by
  rw [entryOf, FileCache.peek?_of_honest hhonest]
  cases hfind : i.find? p with
  | none => rw [Option.getD_none, freshEntry_eq]
  | some symbols =>
    obtain ⟨x, hx, hsame, rfl⟩ := mem_of_find? hfind
    have hentry := hfresh x hx hsame
    have hfile := file?_of_listed h (hlisted x hx) hp hsame
    rw [freshEntry_eq, Disk.text?, hfile] at hentry
    rw [Option.getD_some, freshEntry_eq, Disk.text?]
    exact congrArg (Prod.mk p) (congrArg Prod.snd hentry)

/-- Entries in the order of the list are sorted already. -/
lemma snapshot_of_files (h : i.files.map Prod.fst = discover d roots settings) :
    i.snapshot = i.files := by
  refine List.mergeSort_of_pairwise ?_
  have hsorted := pairwise_discover d roots settings
  rwa [← h, List.pairwise_map] at hsorted

lemma build_of_complete (h : i.complete) :
    i.build d roots settings cache = ⟨i, cache, i.snapshot⟩ := by
  rw [build, if_pos h]

lemma build_of_not_complete (h : ¬ i.complete) :
    i.build d roots settings cache =
      ⟨⟨(discover d roots settings).map (i.entryOf d settings cache), true, i.generation⟩,
        cache.readAll d ((discover d roots settings).filter fun p => (i.find? p).isNone),
        (discover d roots settings).map (i.entryOf d settings cache)⟩ := by
  rw [build, if_neg h]

end Index

namespace Session

/-! ### Pending changes -/

/-- The changed files that the editor has not heard of, after an event. A file that is written or
deleted is to be reported by the normal form of its path. -/
def pendingAfter (s : Session) (pending : List Path) : Event → List Path
  | .write p _ => p.normalize?.toList ++ pending
  | .delete p => if s.disk.isFile p then p.normalize?.toList ++ pending else pending
  | .noticed p _ => pending.filter fun q => !q.same p
  | _ => pending

/-- The changed files that the editor has not heard of after a run, beside those from before it. -/
def pendingFrom (s : Session) (pending : List Path) : List Event → List Path
  | [] => pending
  | ev :: events => (s.step ev).pendingFrom (s.pendingAfter pending ev) events

/-- The changed files that the editor has not heard of after a run. -/
def pending (s : Session) (events : List Event) : List Path :=
  s.pendingFrom [] events

/-- Files are written and deleted by absolute paths, and written where there can be one, folders
have no `..` in their paths, and the index is built from the folders and settings of the state. -/
def Orderly (s : Session) : Event → Prop
  | .write p _ => p.isAbsolute ∧ s.disk.Writable (Disk.placeOf p)
  | .delete p => p.isAbsolute
  | .foldersSet folders => ∀ r ∈ folders.filterMap Uri.path?, .parent ∉ r.components
  | .indexBuiltFrom roots settings => roots = s.editor.roots ∧ settings = s.editor.settings
  | _ => True

instance (s : Session) : DecidablePred s.Orderly
  | .write p _ =>
    inferInstanceAs (Decidable (p.isAbsolute = true ∧ s.disk.Writable (Disk.placeOf p)))
  | .delete p => inferInstanceAs (Decidable (p.isAbsolute = true))
  | .foldersSet folders =>
    inferInstanceAs (Decidable (∀ r ∈ folders.filterMap Uri.path?, .parent ∉ r.components))
  | .indexBuiltFrom roots settings =>
    inferInstanceAs (Decidable (roots = s.editor.roots ∧ settings = s.editor.settings))
  | .noticed .. | .opened .. | .closed _ | .changed .. | .configured .. | .hover ..
  | .completion .. | .signatureHelp .. | .definition .. | .indexBuilt | .indexForgot _
  | .indexDropped => inferInstanceAs (Decidable True)

/-- Every event of a run is orderly where it happens. -/
def RunsOrderly (s : Session) : List Event → Prop
  | [] => True
  | ev :: events => s.Orderly ev ∧ (s.step ev).RunsOrderly events

instance decidableRunsOrderly (s : Session) :
    (events : List Event) → Decidable (s.RunsOrderly events)
  | [] => inferInstanceAs (Decidable True)
  | ev :: events =>
    have := decidableRunsOrderly (s.step ev) events
    inferInstanceAs (Decidable (s.Orderly ev ∧ (s.step ev).RunsOrderly events))

end Session

/-! ### The invariant -/

open Index (Listed discover freshEntry freshListing)

/-- A change of the file at a path is pending. -/
def IsPending (pending : List Path) (p : Path) : Prop :=
  ∃ q ∈ pending, q.components = p.components

/-- The invariant of sessions. The disk is a tree and the folders have direct paths; kept texts are
honest and entries are fresh unless a change of their file is pending; and a complete index lists
the source files unless a change of one is pending. -/
structure Tracked (d : Disk) (e : Editor) (pending : List Path) : Prop where
  isTree : d.IsTree
  direct : ∀ r ∈ e.roots, r.Direct
  honest : ∀ p, p.Direct → ¬ IsPending pending p → e.fileCache.Honest d p
  listed : ∀ x ∈ e.index.files, Listed e.settings x.1
  fresh : ∀ x ∈ e.index.files, ¬ IsPending pending x.1 → x = freshEntry d e.settings x.1
  complete : e.index.complete → (∀ q ∈ pending, ¬ e.settings.isSourceFile q) →
    e.index.files.map Prod.fst = discover d e.roots e.settings

variable {d d' : Disk} {e e' : Editor} {p q w : Path} {pending pending' : List Path}

lemma not_isPending_nil : ¬ IsPending [] p := by
  rintro ⟨q, hq, -⟩
  exact absurd hq List.not_mem_nil

lemma IsPending.mono (h : IsPending pending p) (hsub : pending ⊆ pending') :
    IsPending pending' p := by
  obtain ⟨q, hq, hsame⟩ := h
  exact ⟨q, hsub hq, hsame⟩

/-- What is reported is not pending any more; the rest is. -/
lemma isPending_filter (h : IsPending pending p) (hne : q.components ≠ p.components) :
    IsPending (pending.filter fun r => !r.same q) p := by
  obtain ⟨r, hr, hsame⟩ := h
  refine ⟨r, List.mem_filter.mpr ⟨hr, ?_⟩, hsame⟩
  have hnot : ¬ r.same q := by
    rw [Path.same_iff, hsame]
    exact hne.symm
  simpa using hnot

/-- A direct path without pending change is not the one written or deleted. -/
lemma placeOf_ne_of_not_isPending (hp : p.Direct)
    (h : ¬ IsPending (atPlace (Disk.placeOf w) :: pending) p) :
    Disk.placeOf p ≠ Disk.placeOf w := by
  intro hplace
  refine h ⟨_, List.mem_cons_self, ?_⟩
  rw [← hplace, hp.components_eq]

namespace Tracked

/-! ### Changes of the disk -/

/-- **A change of the disk** at one place is pending from then on. -/
lemma changed (h : Tracked d e pending) (htree : d'.IsTree)
    (hnode : ∀ place ≠ Disk.placeOf w, ∀ f,
      d'.node? place = some (.file f) ↔ d.node? place = some (.file f))
    (hsource : ∀ settings : Settings, ¬ settings.isSourceFile (atPlace (Disk.placeOf w)) →
      Index.sourceNodes d' settings = Index.sourceNodes d settings) :
    Tracked d' e (atPlace (Disk.placeOf w) :: pending) where
  isTree := htree
  direct := h.direct
  honest p hp hpending := by
    have hold := h.honest p hp fun hold => hpending (hold.mono (List.subset_cons_self ..))
    intro s t f place hkept hplace hfile
    rw [Disk.placeFor?_of_isAbsolute d' hp.isAbsolute, Option.some.injEq] at hplace
    subst hplace
    exact hold s t f _ hkept (Disk.placeFor?_of_isAbsolute d hp.isAbsolute)
      ((hnode _ (placeOf_ne_of_not_isPending hp hpending) f).mp hfile)
  listed := h.listed
  fresh x hx hpending := by
    have hdirect := (h.listed x hx).direct
    have hold := h.fresh x hx fun hold => hpending (hold.mono (List.subset_cons_self ..))
    have hfile := Disk.file?_congr h.isTree htree hdirect
      (hnode _ (placeOf_ne_of_not_isPending hdirect hpending))
    rw [Index.freshEntry_congr hfile rfl]
    exact hold
  complete hcomplete hpending := by
    rw [List.forall_mem_cons] at hpending
    rw [Index.discover_congr h.isTree htree h.direct (hsource _ hpending.1)]
    exact h.complete hcomplete hpending.2

lemma write (h : Tracked d e pending) (hw : w.isAbsolute) (hplace : d.Writable (Disk.placeOf w))
    (f : File) : Tracked (d.write w f) e (atPlace (Disk.placeOf w) :: pending) := by
  have hfor := Disk.placeFor?_of_isAbsolute d hw
  refine h.changed (Disk.isTree_write h.isTree hfor hplace f) (fun place hne g => ?_)
    fun _ hsource => Index.sourceNodes_write hfor hsource f
  rw [Disk.node?_write_iff]
  rw [hfor]
  exact fun hsame => hne (Option.some.inj hsame).symm

lemma delete (h : Tracked d e pending) (hw : w.isAbsolute) (hfile : d.isFile w) :
    Tracked (d.delete w) e (atPlace (Disk.placeOf w) :: pending) := by
  have hfor := Disk.placeFor?_of_isAbsolute d hw
  refine h.changed (Disk.isTree_delete h.isTree w) (fun place hne f => ?_) fun _ hsource =>
    Index.sourceNodes_delete hfor hsource
  rw [Disk.node?_delete_of_isFile hfile hfor, if_neg hne]

/-! ### Invalidation -/

/-- **Hearing** of a change drops what is kept of the file. -/
lemma noticed (h : Tracked d e pending) (q : Path) (event : FileEvent) :
    Tracked d (e.fileChanged q event) (pending.filter fun r => !r.same q) := by
  have hindex : (e.fileChanged q event).index =
      if e.settings.isSourceFile q then e.index.invalidateFile q else e.index := rfl
  have hfiles : ∀ x ∈ (e.fileChanged q event).index.files,
      x ∈ e.index.files ∧ q.components ≠ x.1.components := by
    intro x hx
    rw [hindex] at hx
    split_ifs at hx with hsource
    · obtain ⟨hx, hne⟩ := List.mem_filter.mp hx
      refine ⟨hx, fun hsame => ?_⟩
      simp [Path.same_iff.mpr hsame.symm] at hne
    · -- the index holds source files only
      refine ⟨hx, fun hsame => hsource ?_⟩
      rw [Settings.isSourceFile_congr hsame]
      exact (h.listed x hx).isSourceFile
  refine ⟨h.isTree, h.direct, fun p hp hpending => ?_, fun x hx => h.listed x (hfiles x hx).1,
    fun x hx hpending => ?_, fun hcomplete hpending => ?_⟩
  · exact FileCache.honest_invalidate fun hne =>
      h.honest p hp fun hold => hpending (isPending_filter hold hne)
  · obtain ⟨hx, hne⟩ := hfiles x hx
    exact h.fresh x hx fun hold => hpending (isPending_filter hold hne)
  · rw [hindex] at hcomplete ⊢
    split_ifs at hcomplete with hsource
    · cases hcomplete
    · rw [if_neg hsource]
      refine h.complete hcomplete fun r hr hr' => ?_
      by_cases hsame : r.same q
      · rw [Settings.isSourceFile_congr (Path.same_iff.mp hsame)] at hr'
        exact hsource hr'
      · exact hpending r (List.mem_filter.mpr ⟨hr, by simpa using hsame⟩) hr'

/-- **Forgetting** some entries leaves the others, in an index that is not complete. -/
lemma forgotten (h : Tracked d e pending) {i : Index} (hfiles : i.files ⊆ e.index.files)
    (hcomplete : i.complete = false) : Tracked d { e with index := i } pending where
  isTree := h.isTree
  direct := h.direct
  honest := h.honest
  listed x hx := h.listed x (hfiles hx)
  fresh x hx := h.fresh x (hfiles hx)
  complete hi := by
    rw [show i.complete = true from hi] at hcomplete
    cases hcomplete

/-- **Forgetting everything** allows for other folders and settings. -/
lemma cleared (h : Tracked d e pending) (hcache : e'.fileCache = e.fileCache)
    (hdirect : ∀ r ∈ e'.roots, r.Direct)
    (hindex : e'.index = e.index.invalidateAll) : Tracked d e' pending := by
  refine ⟨h.isTree, hdirect, fun p hp hpending => ?_, fun x hx => ?_, fun x hx => ?_, fun hi => ?_⟩
  · rw [hcache]
    exact h.honest p hp hpending
  · rw [hindex] at hx
    cases hx
  · rw [hindex] at hx
    cases hx
  · rw [hindex] at hi
    cases hi

/-- **New settings** drop everything if they shape the symbols differently. -/
lemma adopt (h : Tracked d e pending) (settings : Settings) (errors : List Settings.Error) :
    Tracked d (e.adopt settings errors).1 pending := by
  by_cases hdiffer : e.settings.symbolsDiffer settings
  · exact h.cleared rfl h.direct (by simp only [Editor.adopt, if_pos hdiffer])
  · have hagree : e.settings.symbolsDiffer settings = false := by simpa using hdiffer
    obtain ⟨hoptions, hsource, -⟩ := Settings.eq_of_not_symbolsDiffer hagree
    have hindex : (e.adopt settings errors).1.index = e.index := by
      simp only [Editor.adopt, if_neg hdiffer]
    refine ⟨h.isTree, h.direct, h.honest, fun x hx => ?_, fun x hx hpending => ?_,
      fun hcomplete hpending => ?_⟩
    · rw [hindex] at hx
      obtain ⟨hdirect, hends, hfile⟩ := h.listed x hx
      exact ⟨hdirect, hends, by rw [← hsource] at hfile; exact hfile⟩
    · rw [hindex] at hx
      exact (h.fresh x hx hpending).trans (Index.freshEntry_congr rfl hoptions).symm
    · rw [hindex] at hcomplete ⊢
      refine (h.complete hcomplete fun q hq => ?_).trans
        (Index.discover_of_not_symbolsDiffer hagree).symm
      rw [← hsource]
      exact hpending q hq

/-! ### Reading -/

/-- **Reading** files, and changing what the index does not depend on, keeps the invariant. -/
lemma read (h : Tracked d e pending) (hfolders : e'.folders = e.folders)
    (hsettings : e'.settings = e.settings) (hindex : e'.index = e.index) (paths : List Path)
    (hcache : e'.fileCache = e.fileCache.readAll d paths) : Tracked d e' pending := by
  have hroots : e'.roots = e.roots := by rw [Editor.roots, Editor.roots, hfolders]
  refine ⟨h.isTree, ?_, fun p hp hpending => ?_, ?_, ?_, ?_⟩
  · rw [hroots]
    exact h.direct
  · rw [hcache]
    exact (h.honest p hp hpending).readAll paths
  · rw [hindex, hsettings]
    exact h.listed
  · rw [hindex, hsettings]
    exact h.fresh
  · rw [hindex, hsettings, hroots]
    exact h.complete

/-- **Editing** a document leaves the index as it is. -/
lemma edited (h : Tracked d e pending) (u : Uri) (documents : OrderedMap Uri Document)
    (includeCache : IncludeCache) :
    Tracked d (Editor.edited { e with documents, includeCache } u) pending := by
  rw [Editor.edited_eq]
  exact h.read rfl rfl rfl [] rfl

/-- **Asking** leaves the index as it is. -/
lemma asked {u : Uri} (h : Tracked d e pending) (hasked : e.Asked d u e') :
    Tracked d e' pending := by
  cases hasked with
  | recalled paths => exact h.read rfl rfl rfl paths rfl
  | walked paths => exact h.read rfl rfl rfl paths rfl

/-- An entry that a build makes is fresh, unless a change of its file is pending. -/
lemma entryOf_eq (h : Tracked d e pending) (hp : Listed e.settings p)
    (hpending : ¬ IsPending pending p) :
    e.index.entryOf d e.settings e.fileCache p = freshEntry d e.settings p := by
  have hhonest := h.honest p hp.direct hpending
  refine Index.entryOf_eq_freshEntry h.isTree h.listed hp hhonest fun x hx hsame => ?_
  exact h.fresh x hx fun ⟨r, hr, hsame'⟩ => hpending ⟨r, hr, hsame'.trans hsame⟩

/-- **Building the index** lists what is there. -/
lemma buildIndex (h : Tracked d e pending) : Tracked d (e.buildIndex d).1 pending := by
  rw [Editor.buildIndex, Editor.buildIndexFrom]
  by_cases hcomplete : e.index.complete
  · rw [Index.build_of_complete hcomplete]
    exact h
  · rw [Index.build_of_not_complete hcomplete]
    have hlisted : ∀ p ∈ discover d e.roots e.settings, Listed e.settings p :=
      fun p hp => Index.listed_of_mem_discover h.isTree h.direct hp
    refine ⟨h.isTree, h.direct, fun p hp hpending => (h.honest p hp hpending).readAll _,
      fun x hx => ?_, fun x hx hpending => ?_, fun _ _ => ?_⟩
    · obtain ⟨p, hp, rfl⟩ := List.mem_map.mp hx
      exact hlisted p hp
    · obtain ⟨p, hp, rfl⟩ := List.mem_map.mp hx
      exact h.entryOf_eq (hlisted p hp) hpending
    · rw [List.map_map]
      exact List.map_id' _

/-! ### When nothing is pending -/

/-- A complete index is the fresh listing. -/
lemma files_eq (h : Tracked d e []) (hcomplete : e.index.complete) :
    e.index.files = freshListing d e.roots e.settings := by
  have hfiles := h.complete hcomplete fun _ hq => absurd hq List.not_mem_nil
  rw [freshListing, ← hfiles, List.map_map]
  refine (List.map_id _).symm.trans (List.map_congr_left fun x hx => ?_)
  exact h.fresh x hx not_isPending_nil

lemma snapshot_eq (h : Tracked d e []) (hcomplete : e.index.complete) :
    e.index.snapshot = freshListing d e.roots e.settings := by
  have hfiles := h.complete hcomplete fun _ hq => absurd hq List.not_mem_nil
  rw [Index.snapshot_of_files hfiles, h.files_eq hcomplete]

/-- A build returns the fresh listing. -/
lemma results_eq (h : Tracked d e []) : (e.buildIndex d).2 = freshListing d e.roots e.settings := by
  rw [Editor.buildIndex, Editor.buildIndexFrom]
  by_cases hcomplete : e.index.complete
  · rw [Index.build_of_complete hcomplete]
    exact h.snapshot_eq hcomplete
  · rw [Index.build_of_not_complete hcomplete]
    refine List.map_congr_left fun p hp => h.entryOf_eq ?_ not_isPending_nil
    exact Index.listed_of_mem_discover h.isTree h.direct hp

end Tracked

/-! ### Runs -/

namespace Session

lemma tracked_start {disk : Disk} (h : disk.IsTree) (settings : Settings) :
    Tracked disk (Session.start disk settings).editor [] where
  isTree := h
  direct _ hr := absurd hr List.not_mem_nil
  honest p _ _ := FileCache.honest_empty disk p
  listed _ hx := absurd hx List.not_mem_nil
  fresh _ hx := absurd hx List.not_mem_nil
  complete h := by cases h

/-- **A step**: every orderly event keeps the invariant. -/
lemma tracked_step {s : Session} (h : Tracked s.disk s.editor pending) {ev : Event}
    (horderly : s.Orderly ev) :
    Tracked (s.step ev).disk (s.step ev).editor (s.pendingAfter pending ev) := by
  cases ev with
  | write w f =>
    rw [pendingAfter, Path.normalize?_of_isAbsolute horderly.1]
    exact h.write horderly.1 horderly.2 f
  | delete w =>
    by_cases hfile : s.disk.isFile w
    · rw [pendingAfter, if_pos hfile, Path.normalize?_of_isAbsolute horderly]
      exact h.delete horderly hfile
    · have hdisk : (s.step (.delete w)).disk = s.disk := Disk.delete_of_not_isFile hfile
      rw [pendingAfter, if_neg hfile, hdisk]
      exact h
  | noticed q event => exact h.noticed q event
  | opened u t version => exact h.edited u _ _
  | closed u => exact h.edited u _ _
  | changed u c => exact h.edited u _ _
  | configured settings errors => exact h.adopt settings errors
  | foldersSet folders =>
    refine h.cleared rfl (fun r hr => ⟨?_, horderly r hr⟩) rfl
    obtain ⟨u, -, hpath⟩ := List.mem_filterMap.mp hr
    exact Uri.isAbsolute_of_path? hpath
  | hover u p => exact h.asked (Editor.asked_hover _ _ u p)
  | completion u p => exact h.asked (Editor.asked_completion _ _ u p)
  | signatureHelp u p => exact h.asked (Editor.asked_signatureHelp _ _ u p)
  | definition u p => exact h.asked (Editor.asked_definition _ _ u p)
  | indexBuilt => exact h.buildIndex
  | indexBuiltFrom roots settings =>
    obtain ⟨rfl, rfl⟩ := horderly
    exact h.buildIndex
  | indexForgot p => exact h.forgotten (List.filter_subset_self _) rfl
  | indexDropped => exact h.cleared rfl h.direct rfl

/-- **A run**: the invariant holds after every run of orderly events. -/
lemma tracked_run {s : Session} (h : Tracked s.disk s.editor pending) {events : List Event}
    (horderly : s.RunsOrderly events) :
    Tracked (s.run events).disk (s.run events).editor (s.pendingFrom pending events) := by
  rw [run]
  induction events generalizing s pending with
  | nil => exact h
  | cons ev events ih => exact ih (tracked_step h horderly.1) horderly.2

/-- **Coherence.** Take any run of orderly events from a fresh state on a tree without links, after
which no change of the disk is pending. Each entry of the index is the one of its file on disk. If
the index is complete, it holds exactly the files that are listed, sorted and with the symbols they
have on disk. A build returns just these, and so does a build that starts from nothing. -/
theorem index_eq_fresh (disk : Disk) (settings : Settings) (events : List Event) :
    let s := (Session.start disk settings).run events
    disk.IsTree → (Session.start disk settings).RunsOrderly events →
    (Session.start disk settings).pending events = [] →
    (∀ x ∈ s.editor.index.files, x = freshEntry s.disk s.editor.settings x.1) ∧
    (s.editor.index.complete →
      s.editor.index.snapshot = freshListing s.disk s.editor.roots s.editor.settings) ∧
    (s.editor.buildIndex s.disk).2 = freshListing s.disk s.editor.roots s.editor.settings ∧
    (s.editor.buildIndex s.disk).2 = ({ s.editor with index := .empty }.buildIndex s.disk).2 := by
  intro s htree horderly hpending
  have h : Tracked s.disk s.editor [] := by
    have h := tracked_run (tracked_start htree settings) horderly
    rwa [show (Session.start disk settings).pendingFrom [] events = [] from hpending] at h
  have hempty : Tracked s.disk { s.editor with index := .empty } [] :=
    h.forgotten (List.nil_subset _) rfl
  refine ⟨fun x hx => h.fresh x hx not_isPending_nil, h.snapshot_eq, h.results_eq, ?_⟩
  exact h.results_eq.trans hempty.results_eq.symm

/-- A file with one function. -/
def functionFile (name : String) : File :=
  ⟨File.encode ("Func " ++ name ++ "()\nEndFunc").toList, 0⟩

/-- The identifier of a folder. -/
def folderUri (segments : List String) : Uri :=
  ⟨Uri.fileScheme, some [], .segments (segments.map String.toList), none, none⟩

/-- Of two files that the index holds, one is overwritten within the same time and size, under a
roundabout path, and the other one is deleted. Then the index is built again. -/
def shelfEvents : List Event :=
  [.foldersSet [folderUri ["w"]],
    .write (.ofString "/w/a.au3") (functionFile "F"), .noticed (.ofString "/w/a.au3") .created,
    .write (.ofString "/w/b.au3") (functionFile "H"),
    .noticed (.ofString "/w/b.au3") .created, .indexBuilt,
    .write (.ofString "/w/./v/../a.au3") (functionFile "G"),
    .noticed (.ofString "/w/a.au3") .changed,
    .delete (.ofString "/w/b.au3"), .noticed (.ofString "/w/b.au3") .deleted, .indexBuilt]

/-- After these events the index holds the new function of the first file and nothing else. -/
theorem index_eq_fresh_shelf :
    let s := (Session.start .empty .standard).run shelfEvents
    s.editor.index.complete ∧
      s.editor.index.snapshot.map (fun x => (x.1, x.2.map (·.name))) =
        [(.ofString "/w/a.au3", [['G']])] := by
  intro s
  have hcomplete : s.editor.index.complete := by decide +kernel
  obtain ⟨-, hsnapshot, -⟩ := index_eq_fresh .empty .standard shelfEvents Disk.isTree_empty
    (by decide +kernel) (by decide +kernel)
  have hlisted : discover s.disk s.editor.roots s.editor.settings = [.ofString "/w/a.au3"] :=
    Index.discover_singleton (by decide +kernel) (by decide +kernel)
  refine ⟨hcomplete, ?_⟩
  rw [hsnapshot hcomplete, freshListing, hlisted]
  decide +kernel

/-- A file in a folder whose path goes through another directory and back. -/
def detourEvents : List Event :=
  [.write (.ofString "/w/a/y.au3") (functionFile "H"), .noticed (.ofString "/w/a/y.au3") .created,
    .write (.ofString "/w/b/x.au3") (functionFile "F"), .noticed (.ofString "/w/b/x.au3") .created,
    .foldersSet [folderUri ["w", "a%2F..%2Fb"]]]

/-- The index is built, the file is overwritten, and the editor hears of it. -/
def overwriteEvents : List Event :=
  [.indexBuilt, .write (.ofString "/w/b/x.au3") (functionFile "G"),
    .noticed (.ofString "/w/b/x.au3") .changed]

/-- **An entry that stays outdated.** The editor has heard of every change, but the folder is named
by a path with encoded slashes around a `..`. The index knows the file under a path of this folder,
which is not the one that is reported: it keeps the old function, and builds return it. -/
theorem index_stale_behind_parent :
    let start := Session.start .empty .standard
    let s := start.run (detourEvents ++ overwriteEvents)
    let p : Path := .ofString "/w/a/../b/x.au3"
    Uri.parse? "file:///w/a%2F..%2Fb".toList = some (folderUri ["w", "a%2F..%2Fb"]) ∧
      start.pending (detourEvents ++ overwriteEvents) = [] ∧
      (∃ x ∈ s.editor.index.files, x.1 = p ∧ x.2.map (·.name) = [['F']]) ∧
      (s.editor.buildIndex s.disk).2.map (fun x => (x.1, x.2.map (·.name))) = [(p, [['F']])] ∧
      (freshEntry s.disk s.editor.settings p).2.map (·.name) = [['G']] := by
  intro start s p
  let s₁ := start.run detourEvents
  have hlisted : discover s₁.disk s₁.editor.roots s₁.editor.settings = [p] :=
    Index.discover_singleton (by decide +kernel) (by decide +kernel)
  have hagain : discover s.disk s.editor.roots s.editor.settings = [p] :=
    Index.discover_singleton (by decide +kernel) (by decide +kernel)
  -- the report forgets the entries of another path
  have hindex : s.editor.index = Index.invalidateFile
      ⟨(discover s₁.disk s₁.editor.roots s₁.editor.settings).map
        (s₁.editor.index.entryOf s₁.disk s₁.editor.settings s₁.editor.fileCache), true,
        s₁.editor.index.generation⟩
      (.ofString "/w/b/x.au3") := rfl
  have hcomplete : ¬ s.editor.index.complete := by decide +kernel
  rw [hlisted] at hindex
  refine ⟨by decide +kernel, by decide +kernel, ?_, ?_, by decide +kernel⟩
  · rw [hindex]
    decide +kernel
  · rw [Editor.buildIndex, Editor.buildIndexFrom, Index.build_of_not_complete hcomplete,
      hagain, hindex]
    decide +kernel

end Session

end AutoItServer
