import AutoItServer.Editor.Session
import AutoItServer.Proofs.Editor.Afresh
import AutoItServer.Proofs.Editor.Question

/-!
What is remembered of includes stays right through a session.

The disk changes on its own, and the editor hears of a change only later. In between it may read
what is there already, keep texts that are outdated, and remember includes computed from them.

* `Ledger`: a session with the changes of the disk that the editor has not heard of, and with the
  directives that each remembered entry was computed from.
* `Session.Permits`: changes of the disk are named by absolute paths, and the file of an open
  document is not deleted.
* `Coherent` (**the invariant**): every remembered entry whose files have absolute paths is what is
  computed afresh, or holds a file whose change has not been heard of, or some new file has not been
  heard of; and kept texts are honest except at places with unheard changes.
* `coherent_step`, `coherent_run`: every event keeps the invariant, so it holds in all runs.
* `remembered_eq_afresh` (**coherence**): whenever all changes of the disk have been heard of, each
  remembered entry whose files have absolute paths is what is computed afresh.
* `remembered_outdated`: an entry may be outdated for good if a file is found by a relative path, or
  if a document has a `..` in its path.
-/

namespace AutoItServer

open AutoItServer.Path (atPlace)

/-! ### Sessions with a ledger -/

/-- The document that an event asks about. -/
def Event.question? : Event → Option Uri
  | .hover u _ | .completion u _ | .signatureHelp u _ | .definition u _ => some u
  | _ => none

/-- The directives in the text of an open document. -/
def Editor.directivesOf (e : Editor) (u : Uri) : List Directive :=
  ((e.document? u).map fun doc => Directive.findAll doc.text).getD []

/-- A session, the changes of the disk that its editor has not heard of, and for each document the
directives that its includes were last computed from. -/
structure Ledger where
  session : Session
  unheard : List (Path × FileEvent)
  sources : Uri → List Directive

namespace Ledger

/-- Nothing has happened. -/
def start (disk : Disk) (settings : Settings) : Ledger :=
  ⟨.start disk settings, [], fun _ => []⟩

/-- The unheard changes after an event. A file that is written or deleted is to be reported by the
normal form of its path, and a report answers all changes of its kind at its path. -/
def unheardAfter (l : Ledger) : Event → List (Path × FileEvent)
  | .write p _ =>
    (p.normalize?.map fun q =>
      (q, if l.session.disk.isFile q then FileEvent.changed else .created)).toList ++ l.unheard
  | .delete p =>
    if l.session.disk.isFile p then
      (p.normalize?.map fun q => (q, FileEvent.deleted)).toList ++ l.unheard
    else l.unheard
  | .noticed p event => l.unheard.filter fun c => !(c.1.same p && c.2 = event)
  | _ => l.unheard

/-- The directives that includes were computed from, after an event. A question that makes the
editor walk the include graph computes them from the text that the document has. -/
def sourcesAfter (l : Ledger) (ev : Event) : Uri → List Directive :=
  match ev.question? with
  | none => l.sources
  | some u =>
    if (l.session.step ev).editor.walks = l.session.editor.walks then l.sources
    else fun v => if v = u then l.session.editor.directivesOf u else l.sources v

/-- What an event does. -/
def step (l : Ledger) (ev : Event) : Ledger :=
  ⟨l.session.step ev, l.unheardAfter ev, l.sourcesAfter ev⟩

/-- What a list of events does. -/
def run (l : Ledger) (events : List Event) : Ledger :=
  events.foldl step l

/-- The ledger only watches. -/
lemma session_run (l : Ledger) (events : List Event) :
    (l.run events).session = l.session.run events := by
  rw [run, Session.run]
  induction events generalizing l with
  | nil => rfl
  | cons ev events ih => exact ih (l.step ev)

end Ledger

namespace Session

/-- Files are written and deleted by absolute paths, and no file is deleted at the normal form of
the path of an open document. -/
def Allows (s : Session) : Event → Prop
  | .write p _ => p.isAbsolute
  | .delete p => p.isAbsolute ∧ (s.disk.isFile p →
    ∀ u ∈ s.editor.documents.keys, u.path?.bind Path.normalize? ≠ p.normalize?)
  | _ => True

instance (s : Session) : DecidablePred s.Allows
  | .write p _ => inferInstanceAs (Decidable (p.isAbsolute = true))
  | .delete p => inferInstanceAs (Decidable (p.isAbsolute = true ∧ (s.disk.isFile p = true →
      ∀ u ∈ s.editor.documents.keys, u.path?.bind Path.normalize? ≠ p.normalize?)))
  | .noticed .. | .opened .. | .closed _ | .changed .. | .configured .. | .foldersSet _ | .hover ..
  | .completion .. | .signatureHelp .. | .definition .. | .indexBuilt | .indexBuiltFrom ..
  | .indexForgot _ | .indexDropped => inferInstanceAs (Decidable True)

/-- Every event of a run is allowed where it happens. -/
def Permits (s : Session) : List Event → Prop
  | [] => True
  | ev :: events => s.Allows ev ∧ (s.step ev).Permits events

instance decidablePermits (s : Session) : (events : List Event) → Decidable (s.Permits events)
  | [] => inferInstanceAs (Decidable True)
  | ev :: events =>
    have := decidablePermits (s.step ev) events
    inferInstanceAs (Decidable (s.Allows ev ∧ (s.step ev).Permits events))

end Session

/-! ### The invariant -/

/-- Some change that may outdate an entry has not been heard of: a new file, or a change of a file
that the entry holds. -/
def Outdated (unheard : List (Path × FileEvent)) (entry : IncludeEntry) : Prop :=
  ∃ c ∈ unheard, c.2 = .created ∨ entry.contains c.1

/-- The invariant of sessions. Entries are remembered for open documents, kept texts are honest
unless a change at their place is unheard, and an entry that is not outdated and whose files have
absolute paths is what is computed afresh. -/
structure Coherent (d : Disk) (e : Editor) (unheard : List (Path × FileEvent))
    (sources : Uri → List Directive) : Prop where
  isOpen : ∀ x ∈ e.includeCache.entries, (e.document? x.1).isSome
  honest : ∀ p, p.IsPlace → (∀ c ∈ unheard, c.1 ≠ p) → e.fileCache.Honest d p
  current : ∀ x ∈ e.includeCache.entries, ∃ p, x.1.path? = some p ∧
    ((∀ q ∈ x.2.files, q.isAbsolute) →
      Outdated unheard x.2 ∨ e.afresh.computeIncludes d p (sources x.1) = x.2)

variable {d : Disk} {e e' : Editor} {u : Uri} {p q w : Path}
  {unheard unheard' : List (Path × FileEvent)}
  {sources : Uri → List Directive} {entry : IncludeEntry}

/-- An entry holds its files, however their paths are spelled. -/
lemma IncludeEntry.contains_of_mem (hq : q ∈ entry.files) (h : p.components = q.components) :
    entry.contains p :=
  List.any_eq_true.mpr ⟨q, hq, Path.same_iff.mpr h⟩

/-- Every change that is not heard of yet outdates what it outdated. -/
lemma Outdated.mono (h : Outdated unheard entry) (hsub : unheard ⊆ unheard') :
    Outdated unheard' entry := by
  obtain ⟨c, hc, h⟩ := h
  exact ⟨c, hsub hc, h⟩

/-- A change of a file outdates an entry, or leaves it right if it leaves alone what was computed
without the file. -/
lemma outdated_or_afresh {d' : Disk} {directives : List Directive} (event : FileEvent)
    (h : (∀ q ∈ entry.files, q.isAbsolute) →
      Outdated unheard entry ∨ e.afresh.computeIncludes d p directives = entry)
    (hkeep : (∀ q ∈ (e.afresh.computeIncludes d p directives).files, q.isAbsolute) →
      q ∉ (e.afresh.computeIncludes d p directives).files →
      e.afresh.computeIncludes d' p directives = e.afresh.computeIncludes d p directives)
    (hfiles : ∀ q ∈ entry.files, q.isAbsolute) :
    Outdated ((q, event) :: unheard) entry ∨ e.afresh.computeIncludes d' p directives = entry := by
  rcases h hfiles with h | rfl
  · exact Or.inl (h.mono (List.subset_cons_self ..))
  · by_cases hq : q ∈ (e.afresh.computeIncludes d p directives).files
    · exact Or.inl ⟨_, List.mem_cons_self, Or.inr (IncludeEntry.contains_of_mem hq rfl)⟩
    · exact Or.inr (hkeep hfiles hq)

/-- Of the paths of places only one names a place. -/
lemma placeFor?_ne_of_ne (hp : p.IsPlace) (hw : w.isAbsolute) (hne : atPlace (Disk.placeOf w) ≠ p) :
    d.placeFor? p ≠ d.placeFor? w := by
  rw [Disk.placeFor?_of_isAbsolute d hp.isAbsolute, Disk.placeFor?_of_isAbsolute d hw]
  intro h
  rw [hp.eq_atPlace, Option.some.inj h] at hne
  exact hne rfl

/-! ### What events drop -/

/-- What is remembered after a report does not hold the file, and the file was not new. -/
lemma Editor.mem_of_mem_fileChanged {event : FileEvent} {x : Uri × IncludeEntry}
    (hx : x ∈ (e.fileChanged q event).includeCache.entries) :
    x ∈ e.includeCache.entries ∧ event ≠ .created ∧ ¬ x.2.contains q := by
  simp only [Editor.fileChanged] at hx
  split_ifs at hx with hevent
  · exact absurd hx List.not_mem_nil
  · obtain ⟨hx, hcontains⟩ := List.mem_filter.mp hx
    exact ⟨hx, hevent, by simpa using hcontains⟩

/-- What is remembered after an edit holds no file that the document stands for. -/
lemma Editor.mem_of_mem_edited {x : Uri × IncludeEntry}
    (hx : x ∈ (e.edited u).includeCache.entries) :
    x ∈ e.includeCache.entries ∧ ∀ q ∈ x.2.files, Uri.ofPath? q ≠ some u := by
  rw [Editor.edited] at hx
  split at hx
  · rename_i hpath
    refine ⟨hx, fun q _ hu => ?_⟩
    obtain ⟨r, hr, -⟩ := Uri.path?_of_ofPath? hu
    rw [hpath] at hr
    cases hr
  · rename_i r hpath
    obtain ⟨hx, hcontains⟩ := List.mem_filter.mp hx
    refine ⟨hx, fun q hmem hu => ?_⟩
    obtain ⟨r', hr', hcomponents⟩ := Uri.path?_of_ofPath? hu
    obtain rfl := Option.some.inj (hpath.symm.trans hr')
    simp [IncludeEntry.contains_of_mem hmem hcomponents] at hcontains

/-- An edit drops what is remembered of includes and nothing else. -/
lemma Editor.edited_eq (e : Editor) (u : Uri) :
    e.edited u = { e with includeCache := (e.edited u).includeCache } := by
  rw [Editor.edited]
  split <;> rfl

namespace Coherent

/-! ### Changes of the disk -/

/-- **Writing** a file outdates the entries that hold it, or all of them if the file is new. -/
lemma write (h : Coherent d e unheard sources) (hw : w.isAbsolute) (f : File) :
    Coherent (d.write w f) e ((atPlace (Disk.placeOf w),
      if d.isFile (atPlace (Disk.placeOf w)) then .changed else .created) :: unheard) sources where
  isOpen := h.isOpen
  honest p hp hunheard := by
    have hold := h.honest p hp fun c hc => hunheard c (List.mem_cons_of_mem _ hc)
    exact hold.write (placeFor?_ne_of_ne hp hw (hunheard _ List.mem_cons_self)) f
  current x hx := by
    obtain ⟨p, hpath, hx⟩ := h.current x hx
    refine ⟨p, hpath, ?_⟩
    by_cases hfile : d.isFile (atPlace (Disk.placeOf w))
    · rw [if_pos hfile]
      exact outdated_or_afresh _ hx fun hfiles hout => Editor.afresh_write hw hfiles hout hfile f
    · rw [if_neg hfile]
      exact fun _ => Or.inl ⟨_, List.mem_cons_self, Or.inl rfl⟩

/-- **Deleting** a file outdates the entries that hold it. -/
lemma delete (h : Coherent d e unheard sources) (hw : w.isAbsolute) (hfile : d.isFile w)
    (hopen : ∀ u, (e.document? u).isSome →
      u.path?.bind Path.normalize? ≠ some (atPlace (Disk.placeOf w))) :
    Coherent (d.delete w) e ((atPlace (Disk.placeOf w), .deleted) :: unheard) sources where
  isOpen := h.isOpen
  honest p hp hunheard :=
    (h.honest p hp fun c hc => hunheard c (List.mem_cons_of_mem _ hc)).delete w
  current x hx := by
    obtain ⟨p, hpath, hcurrent⟩ := h.current x hx
    have hp := Uri.isAbsolute_of_path? hpath
    -- an open document is not the file deleted
    have hroot : atPlace (Disk.placeOf w) ≠ Include.root p := by
      have hne := hopen x.1 (h.isOpen x hx)
      rw [hpath, Option.bind_some, Path.normalize?_of_isAbsolute hp] at hne
      rw [Include.root, Path.normalize?_of_isAbsolute hp]
      exact fun hroot => hne (congrArg some hroot.symm)
    exact ⟨p, hpath, outdated_or_afresh _ hcurrent fun hfiles hout =>
      Editor.afresh_delete hw hfiles hout hfile hp hroot⟩

/-- **Hearing** of a change drops what it outdated. -/
lemma noticed (h : Coherent d e unheard sources) (q : Path) (event : FileEvent) :
    Coherent d (e.fileChanged q event) (unheard.filter fun c => !(c.1.same q && c.2 = event))
      sources := by
  refine ⟨fun x hx => h.isOpen x (Editor.mem_of_mem_fileChanged hx).1, fun p hp hunheard => ?_,
    fun x hx => ?_⟩
  · refine FileCache.honest_invalidate fun hne => h.honest p hp fun c hc hcp => ?_
    refine hunheard c (List.mem_filter.mpr ⟨hc, ?_⟩) hcp
    have hsame : ¬ c.1.same q := by
      rw [Path.same_iff, hcp]
      exact Ne.symm hne
    simp [hsame]
  · obtain ⟨hx, hevent, hcontains⟩ := Editor.mem_of_mem_fileChanged hx
    obtain ⟨p, hpath, hx⟩ := h.current x hx
    refine ⟨p, hpath, fun hfiles => (hx hfiles).imp_left ?_⟩
    rintro ⟨c, hc, hout⟩
    refine ⟨c, List.mem_filter.mpr ⟨hc, ?_⟩, hout⟩
    -- the change heard of is another one, or the entry would have been dropped
    by_contra hheard
    simp only [Bool.not_eq_true', Bool.not_eq_false, Bool.and_eq_true, decide_eq_true_eq] at hheard
    obtain ⟨hsame, rfl⟩ := hheard
    rcases hout with hout | hout
    · exact hevent hout
    · obtain ⟨r, hr, hcr⟩ := List.any_eq_true.mp hout
      rw [Path.same_iff] at hsame hcr
      exact hcontains (IncludeEntry.contains_of_mem hr (hsame.symm.trans hcr))

/-! ### Documents and settings -/

/-- **Editing** a document drops what was computed with its file. -/
lemma edited (h : Coherent d e unheard sources) (hsettings : e'.settings = e.settings)
    (hcache : e'.fileCache = e.fileCache) (hdocuments : ∀ v ≠ u, e'.document? v = e.document? v)
    (hentries : ∀ x ∈ e'.includeCache.entries,
      x ∈ e.includeCache.entries ∧ (e'.document? x.1).isSome) :
    Coherent d (e'.edited u) unheard sources := by
  have hdocument : ∀ v, (e'.edited u).document? v = e'.document? v := fun v => by
    rw [Editor.edited_eq]
    rfl
  refine ⟨fun x hx => ?_, fun p hp hunheard => ?_, fun x hx => ?_⟩
  · rw [hdocument]
    exact (hentries x (Editor.mem_of_mem_edited hx).1).2
  · rw [Editor.edited_eq, hcache]
    exact h.honest p hp hunheard
  · obtain ⟨hx, hout⟩ := Editor.mem_of_mem_edited hx
    obtain ⟨p, hpath, hx⟩ := h.current x (hentries x hx).1
    refine ⟨p, hpath, fun hfiles => (hx hfiles).imp_right fun hx => ?_⟩
    rw [← hx]
    refine Editor.afresh_documents (u := u) ?_ (fun v hv => ?_) fun q hq => ?_
    · rw [Editor.edited_eq, hsettings]
    · rw [hdocument, hdocuments v hv]
    · exact hout q (hx ▸ hq)

lemma openDocument (h : Coherent d e unheard sources) (u : Uri) (t : Text) (version : Option Int) :
    Coherent d (e.openDocument u t version) unheard sources := by
  have hfind : ∀ v, (e.documents.insert u ⟨t, version, 0⟩).find? v =
      if u == v then some ⟨t, version, 0⟩ else e.documents.find? v :=
    fun v => OrderedMap.find?_insert u v _ _
  refine h.edited rfl rfl (fun v hv => ?_) fun x hx => ⟨hx, ?_⟩
  · exact (hfind v).trans (if_neg (by simpa using hv.symm))
  · show ((e.documents.insert u ⟨t, version, 0⟩).find? x.1).isSome
    rw [hfind]
    split_ifs
    · rfl
    · exact h.isOpen x hx

lemma closeDocument (h : Coherent d e unheard sources) (u : Uri) :
    Coherent d (e.closeDocument u) unheard sources := by
  have hfind : ∀ v ≠ u, (e.documents.erase u).find? v = e.documents.find? v := fun v hv => by
    rw [OrderedMap.find?_erase, if_neg (by simpa using hv.symm)]
  refine h.edited rfl rfl hfind fun x hx => ?_
  obtain ⟨hx, hne⟩ := List.mem_filter.mp hx
  refine ⟨hx, ?_⟩
  show ((e.documents.erase u).find? x.1).isSome
  rw [hfind x.1 (by simpa using hne)]
  exact h.isOpen x hx

lemma change (h : Coherent d e unheard sources) (u : Uri) (c : Change) :
    Coherent d (e.change u c) unheard sources := by
  have hfind : ∀ v, (e.documents.modify u (·.apply c)).find? v =
      if u == v then (e.documents.find? v).map (·.apply c) else e.documents.find? v :=
    fun v => OrderedMap.find?_modify u v _ _
  refine h.edited rfl rfl (fun v hv => ?_) fun x hx => ⟨hx, ?_⟩
  · exact (hfind v).trans (if_neg (by simpa using hv.symm))
  · show ((e.documents.modify u (·.apply c)).find? x.1).isSome
    have hopen : (e.documents.find? x.1).isSome := h.isOpen x hx
    rw [hfind]
    split_ifs
    · rwa [Option.isSome_map]
    · exact hopen

/-- **New settings** drop everything if they shape the include graph differently. -/
lemma adopt (h : Coherent d e unheard sources) (settings : Settings)
    (errors : List Settings.Error) :
    Coherent d (e.adopt settings errors).1 unheard sources := by
  by_cases hdiffer : e.settings.includesDiffer settings
  · have hnone : (e.adopt settings errors).1.includeCache.entries = [] := by
      simp only [Editor.adopt, if_pos hdiffer]
      rfl
    refine ⟨fun x hx => ?_, h.honest, fun x hx => ?_⟩
    · exact absurd (hnone ▸ hx) List.not_mem_nil
    · exact absurd (hnone ▸ hx) List.not_mem_nil
  · have hagree : e.settings.includesDiffer settings = false := by simpa using hdiffer
    have hsame : (e.adopt settings errors).1.includeCache = e.includeCache := by
      simp only [Editor.adopt, if_neg hdiffer]
    refine ⟨fun x hx => ?_, h.honest, fun x hx => ?_⟩
    · exact h.isOpen x (hsame ▸ hx)
    · obtain ⟨p, hpath, hx⟩ := h.current x (hsame ▸ hx)
      exact ⟨p, hpath, fun hfiles =>
        (hx hfiles).imp_right fun hx => (Editor.afresh_settings hagree).trans hx⟩

/-! ### Questions -/

/-- **Reading** files outdates nothing. -/
lemma read (h : Coherent d e unheard sources) (paths : List Path) (folders : List Uri)
    (index : Index) :
    Coherent d { e with folders, index, fileCache := e.fileCache.readAll d paths }
      unheard sources :=
  ⟨h.isOpen, fun p hp hunheard => (h.honest p hp hunheard).readAll paths, h.current⟩

/-- **Walking** remembers what is computed afresh, unless a change that outdates it is unheard. -/
lemma walked (h : Coherent d e unheard sources) (paths : List Path) {doc : Document}
    (hdoc : e.document? u = some doc) (hpath : u.path? = some p) :
    Coherent d { e with
      fileCache := e.fileCache.readAll d paths
      includeCache := e.includeCache.push u (e.computeIncludes d p (Directive.findAll doc.text))
      walks := e.walks + 1 } unheard (fun v => if v = u then e.directivesOf u else sources v) := by
  have hentries : ∀ x ∈ (e.includeCache.push u
      (e.computeIncludes d p (Directive.findAll doc.text))).entries,
      x = (u, e.computeIncludes d p (Directive.findAll doc.text)) ∨
        (x ∈ e.includeCache.entries ∧ x.1 ≠ u) := by
    intro x hx
    rcases List.mem_cons.mp (List.mem_of_mem_take hx) with hx | hx
    · exact Or.inl hx
    · obtain ⟨hx, hne⟩ := List.mem_filter.mp hx
      exact Or.inr ⟨hx, by simpa using hne⟩
  have hdirectives : e.directivesOf u = Directive.findAll doc.text := by
    rw [Editor.directivesOf, hdoc]
    rfl
  refine ⟨fun x hx => ?_, fun p hp hunheard => (h.honest p hp hunheard).readAll paths,
    fun x hx => ?_⟩
  · rcases hentries x hx with rfl | ⟨hx, -⟩
    · exact Option.isSome_iff_exists.mpr ⟨doc, hdoc⟩
    · exact h.isOpen x hx
  · rcases hentries x hx with rfl | ⟨hx, hne⟩
    · refine ⟨p, hpath, fun hfiles => ?_⟩
      rw [if_pos rfl, hdirectives]
      refine or_iff_not_imp_left.mpr fun hcurrent =>
        Editor.computeIncludes_afresh (e := e) fun q hq => ?_
      refine h.honest q (Editor.isPlace_of_mem_files hq (hfiles q hq)) fun c hc hcq => hcurrent ?_
      exact ⟨c, hc, Or.inr (IncludeEntry.contains_of_mem hq (hcq ▸ rfl))⟩
    · rw [if_neg hne]
      exact h.current x hx

/-- **Asking** is reading, or walking too. -/
lemma asked (h : Coherent d e unheard sources) (hasked : e.Asked d u e') :
    Coherent d e' unheard (if e'.walks = e.walks then sources
      else fun v => if v = u then e.directivesOf u else sources v) := by
  cases hasked with
  | recalled paths =>
    rw [if_pos rfl]
    exact h.read paths _ _
  | walked paths hdoc hpath =>
    rw [if_neg (Nat.succ_ne_self _)]
    exact h.walked paths hdoc hpath

/-- **Building the index** is reading. -/
lemma buildIndexFrom (h : Coherent d e unheard sources) (roots : List Path) (settings : Settings) :
    Coherent d (e.buildIndexFrom d roots settings).1 unheard sources := by
  have hread : ∃ paths, (e.index.build d roots settings e.fileCache).cache =
      e.fileCache.readAll d paths := by
    rw [Index.build]
    split_ifs
    · exact ⟨[], rfl⟩
    · exact ⟨_, rfl⟩
  obtain ⟨paths, hread⟩ := hread
  rw [Editor.buildIndexFrom, hread]
  exact h.read paths _ _

end Coherent

/-! ### Runs -/

namespace Ledger

/-- The invariant of a session with its ledger. -/
def IsCoherent (l : Ledger) : Prop :=
  Coherent l.session.disk l.session.editor l.unheard l.sources

lemma coherent_start (disk : Disk) (settings : Settings) : (start disk settings).IsCoherent where
  isOpen _ hx := absurd hx List.not_mem_nil
  honest p _ _ := FileCache.honest_empty disk p
  current _ hx := absurd hx List.not_mem_nil

/-- **A step**: every event that is allowed keeps the invariant. -/
lemma coherent_step {l : Ledger} (h : l.IsCoherent) {ev : Event} (hallowed : l.session.Allows ev) :
    (l.step ev).IsCoherent := by
  cases ev with
  | write w f =>
    have hnormal := Path.normalize?_of_isAbsolute hallowed
    rw [IsCoherent, step, unheardAfter, hnormal]
    exact Coherent.write h hallowed f
  | delete w =>
    by_cases hfile : l.session.disk.isFile w
    · have hnormal := Path.normalize?_of_isAbsolute hallowed.1
      rw [IsCoherent, step, unheardAfter, if_pos hfile, hnormal]
      refine Coherent.delete h hallowed.1 hfile fun u hu => ?_
      rw [← hnormal]
      exact hallowed.2 hfile u (OrderedMap.mem_keys_of_find? hu)
    · rw [IsCoherent, step, unheardAfter, if_neg hfile]
      have hdisk : (l.session.step (.delete w)).disk = l.session.disk :=
        Disk.delete_of_not_isFile hfile
      rw [hdisk]
      exact h
  | noticed q event => exact Coherent.noticed h q event
  | opened u t version => exact Coherent.openDocument h u t version
  | closed u => exact Coherent.closeDocument h u
  | changed u c => exact Coherent.change h u c
  | configured settings errors => exact Coherent.adopt h settings errors
  | foldersSet folders => exact Coherent.read h [] folders _
  | hover u p => exact Coherent.asked h (Editor.asked_hover _ _ u p)
  | completion u p => exact Coherent.asked h (Editor.asked_completion _ _ u p)
  | signatureHelp u p => exact Coherent.asked h (Editor.asked_signatureHelp _ _ u p)
  | definition u p => exact Coherent.asked h (Editor.asked_definition _ _ u p)
  | indexBuilt => exact Coherent.buildIndexFrom h _ _
  | indexBuiltFrom roots settings => exact Coherent.buildIndexFrom h roots settings
  | indexForgot p => exact Coherent.read h [] _ _
  | indexDropped => exact Coherent.read h [] _ _

/-- **A run**: the invariant holds after every run of allowed events. -/
lemma coherent_run {l : Ledger} (h : l.IsCoherent) {events : List Event}
    (hpermits : l.session.Permits events) : (l.run events).IsCoherent := by
  rw [run]
  induction events generalizing l with
  | nil => exact h
  | cons ev events ih => exact ih (coherent_step h hpermits.1) hpermits.2

/-- **Coherence.** Take any run of allowed events from a fresh state, at the end of which all
changes of the disk have been heard of. There are no links on the disk. Each remembered entry whose
files all have absolute paths belongs to a document with a path, and is what is computed for every
text of that document whose directives are spelled as those it was computed from, in the same order,
whether the files are read afresh from the disk or as they are kept. -/
theorem remembered_eq_afresh (disk : Disk) (settings : Settings) (events : List Event) :
    let s := (Session.start disk settings).run events
    let l := (Ledger.start disk settings).run events
    (Session.start disk settings).Permits events → l.unheard = [] →
    ∀ u entry, (u, entry) ∈ s.editor.includeCache.entries → (∀ q ∈ entry.files, q.isAbsolute) →
      ∃ p, u.path? = some p ∧ ∀ t : Text,
        (Directive.findAll t).map (fun x => (x.kind, x.spec)) =
          (l.sources u).map (fun x => (x.kind, x.spec)) →
        s.editor.afresh.computeIncludes s.disk p (Directive.findAll t) = entry ∧
        s.editor.computeIncludes s.disk p (Directive.findAll t) = entry := by
  intro s l hpermits hheard u entry hentry hfiles
  have hcoherent : Coherent s.disk s.editor [] l.sources := by
    have h := coherent_run (coherent_start disk settings) hpermits
    have hsession : l.session = s := session_run _ _
    rwa [IsCoherent, hsession, hheard] at h
  obtain ⟨p, hpath, hcurrent⟩ := hcoherent.current _ hentry
  have hafresh : s.editor.afresh.computeIncludes s.disk p (l.sources u) = entry :=
    (hcurrent hfiles).resolve_left fun ⟨_, hc, _⟩ => absurd hc List.not_mem_nil
  refine ⟨p, hpath, fun t ht => ?_⟩
  rw [Editor.computeIncludes_of_spelled ht, Editor.computeIncludes_of_spelled ht]
  refine ⟨hafresh, (Editor.computeIncludes_of_afresh fun q hq => ?_).trans hafresh⟩
  exact hcoherent.honest q (Editor.isPlace_of_mem_files hq (hfiles q (hafresh ▸ hq)))
    fun c hc => absurd hc List.not_mem_nil

/-- The identifier of a file in one directory. -/
def deskUri (name : String) : Uri :=
  ⟨Uri.fileScheme, some [], .segments [['w'], name.toList], none, none⟩

/-- The text of a document in that directory. -/
def deskText : Text :=
  "#include \"a.au3\"\n".toList

/-- A file that includes another one. -/
def deskDisk : Disk :=
  (Disk.empty.write (.ofString "/w/a.au3") ⟨File.encode "#include \"b.au3\"".toList, 0⟩).write
    (.ofString "/w/b.au3") ⟨File.encode "Func F($x)".toList, 0⟩

/-- The other file is overwritten within the same time and size, deleted, opened, and made again;
between these events the document is asked about. -/
def deskEvents : List Event :=
  [.opened (deskUri "main.au3") deskText none, .completion (deskUri "main.au3") ⟨1, 0⟩,
    .write (.ofString "/w/./v/../b.au3") ⟨File.encode "Func G($y)".toList, 0⟩,
    .noticed (.ofString "/w/b.au3") .changed, .completion (deskUri "main.au3") ⟨1, 0⟩,
    .delete (.ofString "/w/b.au3"), .noticed (.ofString "/w/b.au3") .deleted,
    .opened (deskUri "b.au3") "Func H($z)".toList none, .completion (deskUri "main.au3") ⟨1, 0⟩,
    .write (.ofString "/w/b.au3") ⟨[], 1⟩, .noticed (.ofString "/w/b.au3") .created,
    .completion (deskUri "main.au3") ⟨1, 0⟩]

/-- After these events the document is remembered with both files and with the function of the open
one, as it is computed afresh. -/
theorem remembered_eq_afresh_desk :
    let s := (Session.start deskDisk Settings.standard).run deskEvents
    ∃ entry, (deskUri "main.au3", entry) ∈ s.editor.includeCache.entries ∧
      s.editor.afresh.computeIncludes s.disk (.ofString "/w/main.au3")
        (Directive.findAll deskText) =
        entry ∧
      entry.files = [.ofString "/w/a.au3", .ofString "/w/b.au3"] ∧
      entry.signatures.keys = [['h']] := by
  intro s
  have hfirst : s.editor.includeCache.entries.head?.map Prod.fst = some (deskUri "main.au3") := by
    decide
  obtain ⟨⟨u, entry⟩, hentry, rfl⟩ := Option.map_eq_some_iff.mp hfirst
  have hmem := List.mem_of_head? hentry
  have habsolute : ∀ x ∈ s.editor.includeCache.entries, ∀ q ∈ x.2.files, q.isAbsolute := by
    decide
  obtain ⟨p, hpath, hafresh⟩ := remembered_eq_afresh deskDisk Settings.standard deskEvents
    (by decide) (by decide) _ _ hmem (habsolute _ hmem)
  have hmain : (deskUri "main.au3").path? = some (.ofString "/w/main.au3") := by decide
  obtain rfl := Option.some.inj (hpath.symm.trans hmain)
  obtain ⟨hafresh, -⟩ := hafresh deskText (by decide)
  refine ⟨entry, hmem, hafresh, ?_, ?_⟩
  · rw [← hafresh]
    decide
  · rw [← hafresh]
    decide

/-! ### Entries that stay outdated -/

/-- All changes of the disk have been heard of, but what is remembered of a document is not what is
computed afresh for a text with the directives that it was computed from. -/
def Stale (l : Ledger) (u : Uri) (t : Text) : Prop :=
  l.unheard = [] ∧
    (Directive.findAll t).map (fun x => (x.kind, x.spec)) =
      (l.sources u).map (fun x => (x.kind, x.spec)) ∧
    ∃ entry, (u, entry) ∈ l.session.editor.includeCache.entries ∧ ∀ p ∈ u.path?,
      l.session.editor.afresh.computeIncludes l.session.disk p (Directive.findAll t) ≠ entry

/-- A document is remembered wrongly if some part of the entry is wrong. -/
lemma stale_of_ne {α : Type} {l : Ledger} {t : Text} (f : IncludeEntry → α)
    (hheard : l.unheard = [])
    (hspelled : (Directive.findAll t).map (fun x => (x.kind, x.spec)) =
      (l.sources u).map (fun x => (x.kind, x.spec)))
    (hpath : u.path? = some p)
    (hne : ∃ x ∈ l.session.editor.includeCache.entries, x.1 = u ∧
      f (l.session.editor.afresh.computeIncludes l.session.disk p (Directive.findAll t)) ≠ f x.2) :
    l.Stale u t := by
  obtain ⟨⟨_, entry⟩, hmem, rfl, hne⟩ := hne
  refine ⟨hheard, hspelled, entry, hmem, fun q hq h => hne ?_⟩
  rw [Option.mem_def, hpath, Option.some.injEq] at hq
  rw [hq, h]

/-- A library that includes a file beside it, and a file of the same name in another directory. -/
def parentDisk : Disk :=
  ((Disk.empty.write (.ofString "/w/main.au3") ⟨[], 0⟩).write (.ofString "/w/a.au3")
    ⟨File.encode "#include \"main.au3\"".toList, 0⟩).write (.ofString "/w/inc/main.au3") ⟨[], 0⟩

/-- A document that includes the library is asked about. Then the file is deleted that stands at the
normal form of the path of the document. -/
def parentEvents : List Event :=
  [.opened (deskUri "v%2F..%2Fmain.au3") deskText none,
    .completion (deskUri "v%2F..%2Fmain.au3") ⟨1, 0⟩,
    .delete (.ofString "/w/main.au3"), .noticed (.ofString "/w/main.au3") .deleted]

/-- A library in a directory of the working directory. -/
def relativeDisk : Disk :=
  ({ Disk.empty with workingDirectory := some [['w']] }).write (.ofString "/w/inc/a.au3")
    ⟨File.encode "Func F($x)".toList, 0⟩

/-- A document that includes the library is asked about. Then the library is overwritten. -/
def relativeEvents : List Event :=
  [.opened (deskUri "main.au3") deskText none, .completion (deskUri "main.au3") ⟨1, 0⟩,
    .write (.ofString "/w/inc/a.au3") ⟨File.encode "Func G($y)".toList, 1⟩,
    .noticed (.ofString "/w/inc/a.au3") .changed]

/-- **Entries that stay outdated**, in two runs.

In the first one the path of the document has a `..` behind a directory that does not exist, so no
file stands there. The walk takes the file at its normal form for the document and does not list it.
After this file was deleted, the library includes the one in the search path, and the entry is kept
without it.

In the second one all events are allowed, and the library is found through a relative search path.
The entry knows it by a relative path, but its change is reported by the absolute one: the entry is
kept with the old function. -/
theorem remembered_outdated :
    (let settings := { Settings.standard with includePaths := [.ofString "/w/inc"] }
      let u := deskUri "v%2F..%2Fmain.au3"
      u.path? = some (.ofString "/w/v/../main.au3") ∧
        ¬ parentDisk.contains (.ofString "/w/v/../main.au3") ∧
        ((start parentDisk settings).run parentEvents).Stale u deskText) ∧
    let settings := { Settings.standard with includePaths := [.ofString "inc"] }
    (Session.start relativeDisk settings).Permits relativeEvents ∧
      ((start relativeDisk settings).run relativeEvents).Stale (deskUri "main.au3") deskText := by
  have hparent : (deskUri "v%2F..%2Fmain.au3").path? = some (.ofString "/w/v/../main.au3") := by
    decide
  have hmain : (deskUri "main.au3").path? = some (.ofString "/w/main.au3") := by decide
  refine ⟨⟨hparent, by decide, ?_⟩, by decide, ?_⟩
  · exact stale_of_ne IncludeEntry.files (by decide) (by decide) hparent (by decide)
  · exact stale_of_ne (fun entry => entry.signatures.keys) (by decide) (by decide) hmain (by decide)

end Ledger

end AutoItServer
