import AutoItServer.Editor.Session
import AutoItServer.Proofs.Data.OrderedMap
import AutoItServer.Proofs.Editor.Question
import AutoItServer.Proofs.Uri.RoundTrip
import AutoItServer.Uri.Reader

/-!
Which open documents come before the disk.

Documents are known by the identifiers that the editor gives them. The document of a file is looked
for under the one identifier that is written for the path of the file, and many others lead to the
same path: every character may be percent-encoded, and slashes may be doubled.

* `Uri.Denotes`: the path of an identifier has the components of another path.
* `Uri.IsCanonical`: an identifier as it is written for a path.
* `Editor.AuthoritativeAt`: where a document is open for a path, its text is the one of the path.
* `authoritativeAt_iff`: this is so exactly when the identifier written for the path is open, or no
  document is open for it.
* `authoritative_iff_canonical`: the same for all paths, and for runs that open documents under
  canonical identifiers only.
* `encoded_document_missed`: a document that an editor opens under an identifier with encoded
  parentheses is missed.
-/

namespace AutoItServer

namespace Uri

/-- The path of an identifier has the components of a path. -/
def Denotes (u : Uri) (p : Path) : Prop :=
  ∃ q, u.path? = some q ∧ q.components = p.components

/-- An identifier as it is written for a path. -/
def IsCanonical (u : Uri) : Prop :=
  ∃ p, ofPath? p = some u

/-- A canonical identifier is the one written for its own path. -/
lemma IsCanonical.ofPath?_eq {u : Uri} {q : Path} (h : u.IsCanonical) (hq : u.path? = some q) :
    ofPath? q = some u := by
  obtain ⟨p, hp⟩ := h
  obtain ⟨r, hr, hcomponents⟩ := path?_of_ofPath? hp
  obtain rfl := Option.some.inj (hq.symm.trans hr)
  rw [ofPath?_congr hcomponents, hp]

end Uri

namespace Editor

variable {e : Editor} {d : Disk} {u : Uri} {p : Path} {doc : Document}

/-- Whether a document is open under an identifier. -/
def IsOpen (e : Editor) (u : Uri) : Prop :=
  (e.document? u).isSome

/-- Open documents are authoritative at a path: if one is open for it, the path counts as open and
its text is the one of such a document. -/
def AuthoritativeAt (e : Editor) (d : Disk) (p : Path) : Prop :=
  (∃ u, e.IsOpen u ∧ u.Denotes p) →
    (e.openAt? p).isSome ∧
      ∃ u doc, e.document? u = some doc ∧ u.Denotes p ∧ e.content d p = some doc.text

/-- The document of a file is the one under the identifier written for it. -/
lemma openAt?_eq_some_iff :
    e.openAt? p = some doc ↔ ∃ u, Uri.ofPath? p = some u ∧ e.document? u = some doc := by
  rw [openAt?, Option.bind_eq_some_iff]

/-- **Where open documents are authoritative**: where the identifier written for the path is open,
or none is open for it. -/
lemma authoritativeAt_iff :
    e.AuthoritativeAt d p ↔
      ((∃ u, e.IsOpen u ∧ u.Denotes p) → ∃ u, e.IsOpen u ∧ Uri.ofPath? p = some u) := by
  refine imp_congr_right fun _ => ⟨fun ⟨hopen, _⟩ => ?_, fun ⟨u, hu, hp⟩ => ?_⟩
  · obtain ⟨doc, hdoc⟩ := Option.isSome_iff_exists.mp hopen
    obtain ⟨u, hu, hdoc⟩ := openAt?_eq_some_iff.mp hdoc
    exact ⟨u, Option.isSome_iff_exists.mpr ⟨doc, hdoc⟩, hu⟩
  · obtain ⟨doc, hdoc⟩ := Option.isSome_iff_exists.mp hu
    have hopen : e.openAt? p = some doc := openAt?_eq_some_iff.mpr ⟨u, hp, hdoc⟩
    refine ⟨Option.isSome_iff_exists.mpr ⟨doc, hopen⟩, u, doc, hdoc, Uri.path?_of_ofPath? hp, ?_⟩
    rw [content, hopen]

/-- Where open documents are not authoritative, the path does not count as open and its text is the
one on disk. -/
lemma content_of_not_authoritativeAt (h : ¬ e.AuthoritativeAt d p) :
    e.openAt? p = none ∧ e.content d p = e.fileCache.peek? d p := by
  have hnone : e.openAt? p = none := by
    rw [Option.eq_none_iff_forall_ne_some]
    intro doc hdoc
    obtain ⟨u, hp, hdoc⟩ := openAt?_eq_some_iff.mp hdoc
    exact h (authoritativeAt_iff.mpr fun _ => ⟨u, Option.isSome_iff_exists.mpr ⟨doc, hdoc⟩, hp⟩)
  exact ⟨hnone, by rw [content, hnone]⟩

/-- Open documents are authoritative at all absolute paths when each has the identifier of its path
open. -/
lemma authoritative_iff :
    (∀ p, p.isAbsolute → e.AuthoritativeAt d p) ↔
      ∀ u q, e.IsOpen u → u.path? = some q → q.isAbsolute →
        ∃ v, e.IsOpen v ∧ Uri.ofPath? q = some v := by
  constructor
  · intro h u q hu hq habsolute
    exact authoritativeAt_iff.mp (h q habsolute) ⟨u, hu, q, hq, rfl⟩
  · rintro h p hp
    refine authoritativeAt_iff.mpr fun ⟨u, hu, q, hq, hcomponents⟩ => ?_
    have habsolute : q.isAbsolute := by
      rwa [Path.isAbsolute_iff_root_mem, hcomponents, ← Path.isAbsolute_iff_root_mem]
    rw [← Uri.ofPath?_congr hcomponents]
    exact h u q hu hq habsolute

/-! ### Open documents of a run -/

@[simp] lemma documents_edited (e : Editor) (u : Uri) : (e.edited u).documents = e.documents := by
  rw [edited]
  split <;> rfl

/-- Questions open no document and close none. -/
lemma Asked.documents {e' : Editor} (h : Asked e d u e') : e'.documents = e.documents := by
  cases h <;> rfl

end Editor

namespace Session

variable {u : Uri}

/-- **A step**: a document that is open was open before, or is opened. -/
lemma isOpen_step {s : Session} {ev : Event} (h : (s.step ev).editor.IsOpen u) :
    s.editor.IsOpen u ∨ ∃ t version, ev = .opened u t version := by
  rw [Editor.IsOpen, Editor.document?] at h ⊢
  cases ev with
  | opened v t version =>
    simp only [step, withEditor, Editor.openDocument, Editor.documents_edited,
      OrderedMap.find?_insert] at h
    by_cases hv : v = u
    · exact Or.inr ⟨t, version, by rw [hv]⟩
    · rw [if_neg (by simpa using hv)] at h
      exact Or.inl h
  | closed v =>
    simp only [step, withEditor, Editor.closeDocument, Editor.documents_edited,
      OrderedMap.find?_erase] at h
    split_ifs at h
    · cases h
    · exact Or.inl h
  | changed v c =>
    simp only [step, withEditor, Editor.change, Editor.documents_edited,
      OrderedMap.find?_modify] at h
    split_ifs at h
    · rw [Option.isSome_map] at h
      exact Or.inl h
    · exact Or.inl h
  | hover v p => exact Or.inl ((Editor.asked_hover _ _ v p).documents ▸ h)
  | completion v p => exact Or.inl ((Editor.asked_completion _ _ v p).documents ▸ h)
  | signatureHelp v p => exact Or.inl ((Editor.asked_signatureHelp _ _ v p).documents ▸ h)
  | definition v p => exact Or.inl ((Editor.asked_definition _ _ v p).documents ▸ h)
  | write | delete | noticed | configured | foldersSet | indexBuilt | indexBuiltFrom | indexForgot
  | indexDropped =>
    exact Or.inl h

/-- **A run**: a document that is open was open before, or was opened. -/
lemma isOpen_run {s : Session} {events : List Event} (h : (s.run events).editor.IsOpen u) :
    s.editor.IsOpen u ∨ ∃ t version, .opened u t version ∈ events := by
  rw [run] at h
  induction events generalizing s with
  | nil => exact Or.inl h
  | cons ev events ih =>
    rcases ih h with h | ⟨t, version, h⟩
    · refine (isOpen_step h).imp_right fun ⟨t, version, hev⟩ => ⟨t, version, ?_⟩
      exact hev ▸ List.mem_cons_self
    · exact Or.inr ⟨t, version, List.mem_cons_of_mem ev h⟩

/-- **When open documents come before the disk.** In every state that a session reaches, open
documents are authoritative at all absolute paths exactly when, for each of them that has such a
path, the identifier written for the path is open too. This is so in every run that opens documents
under canonical identifiers only. Wherever it fails, the disk is read as if no document were
open. -/
theorem authoritative_iff_canonical (disk : Disk) (settings : Settings)
    (events : List Event) (d : Disk) :
    let e := ((Session.start disk settings).run events).editor
    ((∀ p, p.isAbsolute → e.AuthoritativeAt d p) ↔
      ∀ u q, e.IsOpen u → u.path? = some q → q.isAbsolute →
        ∃ v, e.IsOpen v ∧ Uri.ofPath? q = some v) ∧
    ((∀ u t version, .opened u t version ∈ events → u.IsCanonical) →
      ∀ p, p.isAbsolute → e.AuthoritativeAt d p) ∧
    (∀ p, ¬ e.AuthoritativeAt d p → e.openAt? p = none ∧
      e.content d p = e.fileCache.peek? d p) := by
  intro e
  refine ⟨Editor.authoritative_iff, fun hcanonical => Editor.authoritative_iff.mpr ?_,
    fun p => Editor.content_of_not_authoritativeAt⟩
  intro u q hu hq _
  obtain ⟨t, version, hopened⟩ := (isOpen_run hu).resolve_left fun h => by cases h
  exact ⟨u, hu, (hcanonical u t version hopened).ofPath?_eq hq⟩

/-- A file whose name has parentheses. -/
def copyPath : Path :=
  .ofString "/w/a(1).au3"

/-- The identifier of that file, with its name spelled in some way. -/
def copyUri (name : String) : Uri :=
  ⟨Uri.fileScheme, some [], .segments [['w'], name.toList], none, none⟩

/-- The file is on disk, and is opened under an identifier. -/
def copyEvents (name : String) : List Event :=
  [.write copyPath ⟨File.encode "disk".toList, 0⟩, .opened (copyUri name) "editor".toList none]

/-- **A document that is missed.** An editor that encodes parentheses opens the file under an
identifier that denotes it, but the file does not count as open, and its text is read from the
disk. -/
theorem encoded_document_missed :
    let s := (Session.start .empty .standard).run (copyEvents "a%281%29.au3")
    Uri.parse? "file:///w/a%281%29.au3".toList = some (copyUri "a%281%29.au3") ∧
      s.editor.IsOpen (copyUri "a%281%29.au3") ∧ (copyUri "a%281%29.au3").path? = some copyPath ∧
      s.editor.openAt? copyPath = none ∧ s.editor.content s.disk copyPath = some "disk".toList ∧
      ¬ s.editor.AuthoritativeAt s.disk copyPath := by
  intro s
  have hopen : s.editor.IsOpen (copyUri "a%281%29.au3") := by
    rw [Editor.IsOpen]
    decide +kernel
  have hpath : (copyUri "a%281%29.au3").path? = some copyPath := by decide +kernel
  have hnone : s.editor.openAt? copyPath = none := by decide +kernel
  refine ⟨by decide +kernel, hopen, hpath, hnone, by decide +kernel, fun h => ?_⟩
  obtain ⟨hsome, -⟩ := h ⟨_, hopen, copyPath, hpath, rfl⟩
  rw [hnone] at hsome
  cases hsome

/-- Opened under its canonical identifier, the same file has the text of the document. -/
theorem canonical_document_found :
    let s := (Session.start .empty .standard).run (copyEvents "a(1).au3")
    s.editor.AuthoritativeAt s.disk copyPath ∧
      s.editor.content s.disk copyPath = some "editor".toList := by
  intro s
  have hcanonical : ∀ u t version, .opened u t version ∈ copyEvents "a(1).au3" → u.IsCanonical := by
    intro u t version h
    obtain ⟨rfl, -⟩ : u = copyUri "a(1).au3" ∧ t = "editor".toList := by
      simp only [copyEvents, List.mem_cons, reduceCtorEq, Event.opened.injEq, false_or,
        List.not_mem_nil, or_false] at h
      exact ⟨h.1, h.2.1⟩
    exact ⟨copyPath, by decide +kernel⟩
  have h := (authoritative_iff_canonical .empty .standard (copyEvents "a(1).au3") s.disk).2.1
    hcanonical
  exact ⟨h copyPath (by decide +kernel), by decide +kernel⟩

end Session

end AutoItServer
