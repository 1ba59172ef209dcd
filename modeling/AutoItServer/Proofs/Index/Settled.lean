import AutoItServer.Proofs.Index.Coherence

/-!
On which folders and settings the index settles.

A request for symbols first takes the folders and settings of the state, and builds the index from
them later. In between the state may get others. The build notes the generation of the index only
when it starts, so it does not see that what it is given is outdated.

* `Basis`, `Index.ComputedUnder`: the folders and settings of a build, and what an index owes to
  them.
* `IndexMove`, `Session.indexMove`: the four things that an event can do to the index.
* `agrees_of_generation_le`: folders and settings taken from the state are not outdated in the same
  generation.
* `Index.SettledOn`, `settledOn_step`, `settledOn_run`: the index owes its entries to the folders
  and settings of the state, as long as no build is given outdated ones.
* `computedUnder_of_timely` (**the index settles rightly**): this is so if each build runs in the
  generation in which its folders and settings were taken.
* `index_settles_outdated`: a build in a later generation settles on a folder that the state no
  longer has.
-/

namespace AutoItServer

open Index (discover symbolsOf)

/-! ### Bases -/

/-- The folders and settings that a build is given. -/
structure Basis where
  roots : List Path
  settings : Settings

namespace Basis

variable {b c c' : Basis}

/-- Two bases have the same folders, and their settings shape the symbols in the same way. -/
def Agrees (b c : Basis) : Prop :=
  b.roots = c.roots ∧ b.settings.symbolsDiffer c.settings = false

lemma agrees_refl (b : Basis) : b.Agrees b :=
  ⟨rfl, by simp [Settings.symbolsDiffer]⟩

lemma Agrees.trans (h : b.Agrees c) (h' : c.Agrees c') : b.Agrees c' := by
  obtain ⟨hroots, hsettings⟩ := h
  obtain ⟨hroots', hsettings'⟩ := h'
  refine ⟨hroots.trans hroots', ?_⟩
  simp only [Settings.symbolsDiffer, Bool.or_eq_false_iff, bne_eq_false_iff_eq]
    at hsettings hsettings' ⊢
  simp only [hsettings, hsettings', and_self]

/-- The symbols of a file are extracted under the settings of a basis, from some text or from
none. -/
def Yields (b : Basis) (x : IndexedFile) : Prop :=
  ∃ t : Option Text, x.2 = (t.map (symbolsOf b.settings.symbolOptions)).getD []

lemma Agrees.yields {x : IndexedFile} (h : b.Agrees c) (hx : b.Yields x) : c.Yields x := by
  obtain ⟨t, ht⟩ := hx
  exact ⟨t, by rw [ht, (Settings.eq_of_not_symbolsDiffer h.2).1]⟩

end Basis

namespace Index

variable {i : Index} {b c : Basis}

/-- An index is computed under a basis: it lists the source files that the basis gives on some disk,
each with symbols extracted under its settings. -/
def ComputedUnder (i : Index) (b : Basis) : Prop :=
  (∃ d, i.snapshot.map Prod.fst = discover d b.roots b.settings) ∧ ∀ x ∈ i.snapshot, b.Yields x

/-- The entries of an index are extracted under a basis, and if it is complete it lists what the
basis gives on some disk. -/
structure SettledOn (i : Index) (b : Basis) : Prop where
  entries : ∀ x ∈ i.files, b.Yields x
  listing : i.complete → ∃ d, i.files.map Prod.fst = discover d b.roots b.settings

namespace SettledOn

lemma of_agrees (h : i.SettledOn b) (hbc : b.Agrees c) : i.SettledOn c := by
  refine ⟨fun x hx => hbc.yields (h.entries x hx), fun hcomplete => ?_⟩
  obtain ⟨d, hd⟩ := h.listing hcomplete
  exact ⟨d, by rw [hd, ← hbc.1, discover_of_not_symbolsDiffer hbc.2]⟩

lemma computedUnder (h : i.SettledOn b) (hcomplete : i.complete) : i.ComputedUnder b := by
  obtain ⟨d, hd⟩ := h.listing hcomplete
  rw [ComputedUnder, snapshot_of_files hd]
  exact ⟨⟨d, hd⟩, h.entries⟩

/-- An index that knows nothing is settled on any basis. -/
lemma of_blank (hfiles : i.files = []) (hcomplete : i.complete = false) : i.SettledOn b := by
  refine ⟨fun x hx => ?_, fun h => ?_⟩
  · rw [hfiles] at hx
    exact absurd hx List.not_mem_nil
  · rw [hcomplete] at h
    exact absurd h Bool.false_ne_true

lemma invalidateFile (h : i.SettledOn b) (p : Path) : (i.invalidateFile p).SettledOn b :=
  ⟨fun x hx => h.entries x (List.mem_of_mem_filter hx), fun h => absurd h Bool.false_ne_true⟩

/-- A build takes over entries, and extracts the others under the settings it is given. -/
lemma build {d : Disk} {cache : FileCache} (h : i.SettledOn b) (hc : i.complete ∨ c.Agrees b) :
    (i.build d c.roots c.settings cache).index.SettledOn b := by
  by_cases hcomplete : i.complete
  · rwa [build_of_complete hcomplete]
  · have hcb : c.Agrees b := hc.resolve_left hcomplete
    rw [build_of_not_complete hcomplete]
    refine ⟨fun x hx => ?_, fun _ => ⟨d, ?_⟩⟩
    · obtain ⟨p, -, rfl⟩ := List.mem_map.mp hx
      cases hfind : i.find? p with
      | none => exact hcb.yields ⟨cache.peek? d p, by rw [entryOf, hfind, Option.getD_none]⟩
      | some symbols =>
        obtain ⟨y, hy, -, hsymbols⟩ := mem_of_find? hfind
        obtain ⟨t, ht⟩ := h.entries y hy
        exact ⟨t, by rw [entryOf, hfind, Option.getD_some, ← hsymbols, ht]⟩
    · have hlisted : discover d b.roots b.settings = discover d c.roots c.settings := by
        rw [← hcb.1, discover_of_not_symbolsDiffer hcb.2]
      rw [hlisted, List.map_map]
      exact List.map_id _

end SettledOn

end Index

/-! ### What happens to the index -/

/-- What can happen to the index. -/
inductive IndexMove where
  | kept
  | forgot (p : Path)
  | dropped
  | built (b : Basis)

/-- The index after a move. -/
def Index.move (i : Index) (d : Disk) (cache : FileCache) : IndexMove → Index
  | .kept => i
  | .forgot p => i.invalidateFile p
  | .dropped => i.invalidateAll
  | .built b => (i.build d b.roots b.settings cache).index

/-- Whether an event can change the index, or the folders and settings it is built from. -/
def Event.concernsIndex : Event → Bool
  | .noticed .. | .configured .. | .foldersSet .. | .indexBuilt | .indexBuiltFrom ..
    | .indexForgot ..
  | .indexDropped => true
  | _ => false

namespace Session

/-- The folders and settings that the state has. -/
def basis (s : Session) : Basis :=
  ⟨s.editor.roots, s.editor.settings⟩

/-- What an event does to the index. -/
def indexMove (s : Session) : Event → IndexMove
  | .noticed p _ => if s.editor.settings.isSourceFile p then .forgot p else .kept
  | .configured settings _ => if s.editor.settings.symbolsDiffer settings then .dropped else .kept
  | .foldersSet _ => .dropped
  | .indexBuilt => .built s.basis
  | .indexBuiltFrom roots settings => .built ⟨roots, settings⟩
  | .indexForgot p => .forgot p
  | .indexDropped => .dropped
  | _ => .kept

/-- A question leaves folders, settings and index as they are. -/
lemma frame_of_asked {e e' : Editor} {d : Disk} {u : Uri} (h : e.Asked d u e') :
    e'.index = e.index ∧ e'.folders = e.folders ∧ e'.settings = e.settings := by
  cases h <;> exact ⟨rfl, rfl, rfl⟩

/-- An edit leaves folders, settings and index as they are. -/
lemma frame_of_edited (e : Editor) (u : Uri) :
    (e.edited u).index = e.index ∧ (e.edited u).folders = e.folders ∧
    (e.edited u).settings = e.settings := by
  rw [Editor.edited_eq]
  exact ⟨rfl, rfl, rfl⟩

/-- **What the index is not told of** leaves it as it is, and the folders and settings as well. -/
lemma frame_step {s : Session} {ev : Event} (h : ev.concernsIndex = false) :
    (s.step ev).editor.index = s.editor.index ∧ (s.step ev).basis = s.basis := by
  have hframe : ∀ s' : Session, s'.editor.index = s.editor.index ∧
      s'.editor.folders = s.editor.folders ∧
      s'.editor.settings = s.editor.settings → s'.editor.index = s.editor.index ∧
      s'.basis = s.basis := by
    rintro s' ⟨hindex, hfolders, hsettings⟩
    exact ⟨hindex, by rw [basis, basis, Editor.roots, Editor.roots, hfolders, hsettings]⟩
  refine hframe _ ?_
  cases ev with
  | write | delete => exact ⟨rfl, rfl, rfl⟩
  | opened u t version => exact frame_of_edited _ u
  | closed u => exact frame_of_edited _ u
  | changed u c => exact frame_of_edited _ u
  | hover u p => exact frame_of_asked (Editor.asked_hover _ _ u p)
  | completion u p => exact frame_of_asked (Editor.asked_completion _ _ u p)
  | signatureHelp u p => exact frame_of_asked (Editor.asked_signatureHelp _ _ u p)
  | definition u p => exact frame_of_asked (Editor.asked_definition _ _ u p)
  | noticed | configured | foldersSet | indexBuilt | indexBuiltFrom | indexForgot | indexDropped =>
    cases h

/-- **The index after an event.** -/
lemma index_step (s : Session) (ev : Event) :
    (s.step ev).editor.index = s.editor.index.move s.disk s.editor.fileCache (s.indexMove ev) := by
  cases ev with
  | noticed p event =>
    show (if s.editor.settings.isSourceFile p then _ else _) = _
    rw [indexMove]
    split_ifs <;> rfl
  | configured settings errors =>
    show (if s.editor.settings.symbolsDiffer settings then _ else _) = _
    rw [indexMove]
    split_ifs <;> rfl
  | foldersSet | indexBuilt | indexBuiltFrom | indexForgot | indexDropped => rfl
  | _ => exact (frame_step rfl).1

/-- **The basis after an event** is the one before, or has settings with the same symbols, unless
the index is dropped. -/
lemma agrees_step {s : Session} {ev : Event} (h : s.indexMove ev ≠ .dropped) :
    s.basis.Agrees (s.step ev).basis := by
  cases ev with
  | configured settings errors =>
    have hdiffer : ¬ s.editor.settings.symbolsDiffer settings := fun hdiffer => h (if_pos hdiffer)
    exact ⟨rfl, Bool.eq_false_iff.mpr hdiffer⟩
  | foldersSet | indexDropped => exact absurd rfl h
  | noticed | indexBuilt | indexBuiltFrom | indexForgot => exact Basis.agrees_refl s.basis
  | _ =>
    rw [(frame_step rfl).2]
    exact Basis.agrees_refl _

/-! ### Generations -/

lemma generation_le_step (s : Session) (ev : Event) :
    s.editor.index.generation ≤ (s.step ev).editor.index.generation := by
  rw [index_step]
  cases s.indexMove ev with
  | kept => exact le_rfl
  | forgot p => exact Nat.le_succ _
  | dropped => exact Nat.le_succ _
  | built b =>
    rw [Index.move, Index.build]
    split_ifs <;> exact le_rfl

lemma ne_dropped_of_generation_le {s : Session} {ev : Event}
    (h : (s.step ev).editor.index.generation ≤ s.editor.index.generation) :
    s.indexMove ev ≠ .dropped := by
  intro hdropped
  rw [index_step, hdropped] at h
  exact Nat.not_succ_le_self _ h

lemma generation_le_run (s : Session) (events : List Event) :
    s.editor.index.generation ≤ (s.run events).editor.index.generation := by
  induction events generalizing s with
  | nil => exact le_rfl
  | cons ev events ih => exact (generation_le_step s ev).trans (ih (s.step ev))

/-- **In the same generation nothing is outdated.** Folders and settings that were taken from the
state agree with those it has, as long as the index has the same generation. -/
lemma agrees_of_generation_le {s : Session} {events : List Event}
    (h : (s.run events).editor.index.generation ≤ s.editor.index.generation) :
    s.basis.Agrees (s.run events).basis := by
  induction events generalizing s with
  | nil => exact Basis.agrees_refl _
  | cons ev events ih =>
    have hle : (s.step ev).editor.index.generation ≤
        ((s.step ev).run events).editor.index.generation :=
      generation_le_run _ events
    have hstep := agrees_step (ne_dropped_of_generation_le (hle.trans h))
    exact hstep.trans (ih (h.trans (generation_le_step s ev)))

/-! ### Runs -/

/-- Each build is given folders and settings that the state had at an earlier point of the run, in
the generation that the index has when the build starts. A complete index is returned as it is. -/
def Timely (s : Session) (events : List Event) : Prop :=
  ∀ before roots settings after, events = before ++ .indexBuiltFrom roots settings :: after →
    (s.run before).editor.index.complete ∨ ∃ earlier, earlier <+: before ∧
      (s.run earlier).basis = ⟨roots, settings⟩ ∧
      (s.run before).editor.index.generation = (s.run earlier).editor.index.generation

lemma run_append (s : Session) (events events' : List Event) :
    s.run (events ++ events') = (s.run events).run events' :=
  List.foldl_append

/-- **One event.** The index stays settled on what the state has, if a build is given nothing
outdated. -/
lemma settledOn_step {s : Session} {ev : Event} (h : s.editor.index.SettledOn s.basis)
    (hbuild : ∀ b, s.indexMove ev = .built b → s.editor.index.complete ∨ b.Agrees s.basis) :
    (s.step ev).editor.index.SettledOn (s.step ev).basis := by
  rcases eq_or_ne (s.indexMove ev) .dropped with hdropped | hkept
  · rw [index_step, hdropped]
    exact Index.SettledOn.of_blank rfl rfl
  · refine Index.SettledOn.of_agrees ?_ (agrees_step hkept)
    rw [index_step]
    cases hmove : s.indexMove ev with
    | kept => exact h
    | forgot p => exact h.invalidateFile p
    | dropped => exact absurd hmove hkept
    | built b => exact h.build (hbuild b hmove)

/-- What the last event of a timely run may build from. -/
lemma Timely.agrees {s : Session} {events : List Event} {ev : Event} {b : Basis}
    (h : s.Timely (events ++ [ev])) (hmove : (s.run events).indexMove ev = .built b) :
    (s.run events).editor.index.complete ∨ b.Agrees (s.run events).basis := by
  cases ev with
  | indexBuilt =>
    obtain rfl : (s.run events).basis = b := IndexMove.built.inj hmove
    exact .inr (Basis.agrees_refl _)
  | indexBuiltFrom roots settings =>
    obtain rfl : ⟨roots, settings⟩ = b := IndexMove.built.inj hmove
    refine (h events roots settings [] rfl).imp_right ?_
    rintro ⟨earlier, ⟨later, rfl⟩, hbasis, hgeneration⟩
    rw [← hbasis, run_append]
    rw [run_append] at hgeneration
    exact agrees_of_generation_le hgeneration.le
  | noticed | configured =>
    rw [indexMove] at hmove
    split_ifs at hmove
  | _ => cases hmove

lemma Timely.of_append {s : Session} {events events' : List Event}
    (h : s.Timely (events ++ events')) :
    s.Timely events := by
  rintro before roots settings after rfl
  exact h before roots settings (after ++ events') (by simp)

/-- **Whole runs.** -/
lemma settledOn_run {s : Session} (h : s.editor.index.SettledOn s.basis) (events : List Event)
    (htimely : s.Timely events) : (s.run events).editor.index.SettledOn (s.run events).basis := by
  induction events using List.reverseRecOn with
  | nil => exact h
  | append_singleton events ev ih =>
    rw [run_append]
    exact settledOn_step (ih htimely.of_append) fun b => htimely.agrees

/-- **The index settles rightly.** In a run in which no build is overtaken by a new generation, a
complete index is computed under the folders and settings that the state has. -/
theorem computedUnder_of_timely (disk : Disk) (settings : Settings) (events : List Event)
    (htimely : (Session.start disk settings).Timely events)
    (hcomplete : ((Session.start disk settings).run events).editor.index.complete) :
    let s := (Session.start disk settings).run events
    s.editor.index.ComputedUnder s.basis :=
  (settledOn_run (Index.SettledOn.of_blank rfl rfl) events htimely).computedUnder hcomplete

/-- A folder with one file is opened. -/
def openedFolder : List Event :=
  [.write (.ofString "/w/a.au3") (functionFile "F"), .foldersSet [folderUri ["w"]]]

/-- **An index that settles on a closed folder.** A request takes the folders of the state, the
folder is closed, and the request builds the index. The build starts in the new generation, so
nothing holds it back: the index is complete with the file of the closed folder, and further builds
return it. -/
theorem index_settles_outdated :
    let opened := (Session.start .empty .standard).run openedFolder
    let s := opened.run [.foldersSet [], .indexBuiltFrom opened.basis.roots opened.basis.settings]
    s.editor.index.complete ∧ s.basis.roots = [] ∧
      (s.editor.buildIndex s.disk).2.map (fun x => (x.1, x.2.map (·.name))) =
        [(.ofString "/w/a.au3", [['F']])] ∧
      ¬ s.editor.index.ComputedUnder s.basis := by
  intro opened s
  have hlisted : discover opened.disk opened.basis.roots opened.basis.settings =
      [.ofString "/w/a.au3"] :=
    Index.discover_singleton (by decide +kernel) (by decide +kernel)
  have hcomplete : s.editor.index.complete := by decide +kernel
  have hfiles : s.editor.index.files =
      (discover opened.disk opened.basis.roots opened.basis.settings).map
      (opened.editor.index.invalidateAll.entryOf opened.disk opened.basis.settings
        opened.editor.fileCache) := rfl
  have hlisting : s.editor.index.files.map Prod.fst =
      discover opened.disk opened.basis.roots opened.basis.settings := by
    rw [hfiles, List.map_map]
    exact List.map_id _
  have hsnapshot := Index.snapshot_of_files hlisting
  rw [hlisted] at hfiles
  have hroots : s.basis.roots = [] := by decide +kernel
  refine ⟨hcomplete, hroots, ?_, ?_⟩
  · rw [Editor.buildIndex, Editor.buildIndexFrom, Index.build_of_complete hcomplete,
      hsnapshot, hfiles]
    decide +kernel
  · rintro ⟨⟨d, hd⟩, -⟩
    rw [hsnapshot, hfiles, hroots] at hd
    -- without folders nothing is listed
    have hnone : discover d [] s.basis.settings = [] := by simp [discover, Index.dropRepeated]
    rw [hnone] at hd
    exact List.cons_ne_nil _ _ hd

end Session

end AutoItServer
