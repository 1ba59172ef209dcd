import AutoItServer.Editor.Basic
import AutoItServer.Proofs.Disk.Cache
import AutoItServer.Proofs.Include.Graph
import AutoItServer.Proofs.Include.Key
import AutoItServer.Proofs.Uri.RoundTrip

/-!
What the includes of a document depend on.

An entry names the files that were found, not those that were looked for. It is still known from
these files alone which changes leave it as it is.

* `Editor.afresh`: the state with no text of a file kept, so that what it computes comes from the
  disk, the open documents and the settings.
* `computeIncludes_congr` (**the files found decide**): the includes stay the same when the files
  found keep their texts and no directive that led to one of them, or to the document, leads
  elsewhere.
* `afresh_write`, `afresh_delete`, `afresh_documents`, `afresh_settings`: what an overwritten file,
  a deleted one, an edited document and new settings leave as it is.
* `computeIncludes_of_spelled`: directives spelled alike in the same order have the same includes.
-/

namespace AutoItServer

namespace Include

/-- Signatures depend on the texts of the files only. -/
lemma signatures_congr {content content' : Content} {files : List Path}
    (h : ∀ q ∈ files, content' q = content q) :
    signatures content' files = signatures content files := by
  rw [signatures, signatures]
  exact List.foldl_ext _ _ _ fun merged q hq => by rw [h q hq]

end Include

namespace Editor

open Include
open AutoItServer.Path (atPlace)

variable {e e' : Editor} {d d' : Disk} {p q w : Path} {directives directives' : List Directive}

/-! ### The files found decide -/

/-- The files of an entry are named by normal forms, an absolute one by the path of its place. -/
lemma isPlace_of_mem_files (hq : q ∈ (e.computeIncludes d p directives).files)
    (habsolute : q.isAbsolute) : q.IsPlace :=
  (isReduced_of_mem_reachableFrom hq).1.isPlace habsolute

/-- **The files found decide.** The includes of a document are the same for another disk and another
state if the files found have the same texts, and every directive leads where it led, unless that is
neither the document nor a file found. -/
lemma computeIncludes_congr (hdepth : e'.settings.maxIncludeDepth = e.settings.maxIncludeDepth)
    (htarget : ∀ x directive,
      target? d' e'.settings x directive = target? d e.settings x directive ∨
        ∃ y, target? d e.settings x directive = some y ∧
          y ≠ root p ∧ y ∉ (e.computeIncludes d p directives).files)
    (hcontent : ∀ q ∈ (e.computeIncludes d p directives).files, e'.content d' q = e.content d q) :
    e'.computeIncludes d' p directives = e.computeIncludes d p directives := by
  have htargets : ∀ x xs, (∀ y ∈ targets d e.settings x xs, y = root p ∨
        y ∈ (e.computeIncludes d p directives).files) →
      targets d' e'.settings x xs = targets d e.settings x xs := by
    intro x xs hmet
    refine List.filterMap_congr fun directive hdirective => ?_
    rcases htarget x directive with h | ⟨y, hy, hroot, hfile⟩
    · exact h
    · rcases hmet y (List.mem_filterMap.mpr ⟨directive, hdirective, hy⟩) with h | h
      · exact absurd h hroot
      · exact absurd h hfile
  have hfiles : reachableFrom d' e'.settings (e'.content d') p directives =
      reachableFrom d e.settings (e.content d) p directives := by
    refine reachableFrom_congr hdepth (htargets p _ fun y => mem_reachableFrom_of_mem_targets)
      fun x hx hroot hmet => ?_
    rw [links, if_neg hroot] at hmet
    rw [links, links, if_neg hroot, if_neg hroot, hcontent x hx]
    cases hx : e.content d x with
    | none => rfl
    | some t =>
      rw [hx] at hmet
      exact htargets x _ hmet
  have hsignatures := signatures_congr hcontent
  simp only [computeIncludes] at hsignatures ⊢
  rw [hfiles, hsignatures]

/-- Directives spelled alike in the same order have the same includes. -/
lemma computeIncludes_of_spelled
    (h : directives.map (fun x => (x.kind, x.spec)) = directives'.map fun x => (x.kind, x.spec)) :
    e.computeIncludes d p directives = e.computeIncludes d p directives' := by
  have hkey : IncludeKey.ofDirectives directives = IncludeKey.ofDirectives directives' := by
    refine IncludeKey.ofDirectives_eq_iff.mpr (.of_eq ?_)
    have hmap := congrArg (List.map fun x : IncludeKind × Text => (x.1, Text.lower x.2)) h
    rw [List.map_map, List.map_map] at hmap
    exact hmap
  have hfiles : reachableFrom d e.settings (e.content d) p directives =
      reachableFrom d e.settings (e.content d) p directives' :=
    reachableFrom_congr rfl (targets_of_spelled h) fun x _ hx _ => by
      simp only [links, if_neg hx]
  simp only [computeIncludes, hkey, hfiles]

/-! ### Includes computed afresh -/

/-- The state with no text of a file kept. -/
def afresh (e : Editor) : Editor :=
  { e with fileCache := .empty }

/-- The text of a file: that of an open document, or the one a reader gets. -/
lemma content_eq (e : Editor) (d : Disk) (q : Path) :
    e.content d q = ((e.openAt? q).map Document.text).or (e.fileCache.peek? d q) := by
  rw [content]
  cases e.openAt? q <;> rfl

/-- The text of a file, afresh: that of an open document, or the one on disk. -/
lemma content_afresh (e : Editor) (d : Disk) (q : Path) :
    e.afresh.content d q = ((e.openAt? q).map Document.text).or (d.text? q) := by
  rw [content_eq, ← FileCache.peek?_of_honest (FileCache.honest_empty d q)]
  rfl

/-- Where what is kept is honest, it is the text that is read afresh. -/
lemma content_of_honest (h : e.fileCache.Honest d q) : e.content d q = e.afresh.content d q := by
  rw [content_afresh, content_eq, FileCache.peek?_of_honest h]

/-- Where what is kept is honest for the files found, the same is found afresh. -/
lemma computeIncludes_afresh
    (h : ∀ q ∈ (e.computeIncludes d p directives).files, e.fileCache.Honest d q) :
    e.afresh.computeIncludes d p directives = e.computeIncludes d p directives :=
  computeIncludes_congr rfl (fun _ _ => Or.inl rfl) fun q hq => (content_of_honest (h q hq)).symm

/-- Where what is kept is honest for the files found afresh, nothing else is found. -/
lemma computeIncludes_of_afresh
    (h : ∀ q ∈ (e.afresh.computeIncludes d p directives).files, e.fileCache.Honest d q) :
    e.computeIncludes d p directives = e.afresh.computeIncludes d p directives :=
  computeIncludes_congr (e := e.afresh) rfl (fun _ _ => Or.inl rfl) fun q hq =>
    content_of_honest (h q hq)

/-! ### Changes of the disk -/

/-- An absolute normal form leads to a place if it is the path of the place. -/
lemma eq_atPlace_of_locate? (hq : q.IsReduced) (habsolute : q.isAbsolute)
    (h : d.locate? q = some (Disk.placeOf w)) : q = atPlace (Disk.placeOf w) := by
  have hplace := (Disk.placeFor?_of_isAbsolute d habsolute).symm.trans (Disk.placeFor?_of_locate? h)
  rw [← Option.some.inj hplace]
  exact (hq.isPlace habsolute).eq_atPlace

variable (hw : w.isAbsolute)
  (hfiles : ∀ q ∈ (e.afresh.computeIncludes d p directives).files, q.isAbsolute)
  (hout : atPlace (Disk.placeOf w) ∉ (e.afresh.computeIncludes d p directives).files)

include hfiles hout

/-- No file found by an absolute path stands at a place that is not among them. -/
lemma locate?_ne_of_mem_files (hq : q ∈ (e.afresh.computeIncludes d p directives).files) :
    d.locate? q ≠ some (Disk.placeOf w) := by
  intro h
  have hreduced := (isReduced_of_mem_reachableFrom hq).1
  exact hout (eq_atPlace_of_locate? hreduced (hfiles q hq) h ▸ hq)

include hw

/-- A file that is overwritten leaves alone what was computed without it, by absolute paths. -/
lemma afresh_write (hfile : d.isFile (atPlace (Disk.placeOf w))) (f : File) :
    e.afresh.computeIncludes (d.write w f) p directives =
      e.afresh.computeIncludes d p directives := by
  refine computeIncludes_congr rfl (fun x directive => ?_) fun q hq => ?_
  · exact target?_of_existing? (fun p => Or.inl (existing?_write_of_isFile hw hfile f p)) _ _ _
  · rw [content_afresh, content_afresh, Disk.text?, Disk.text?, Disk.file?_write_of_isFile hw hfile,
      if_neg (locate?_ne_of_mem_files hfiles hout hq)]

/-- A file that is deleted leaves alone what was computed without it, by absolute paths and for
other documents. -/
lemma afresh_delete (hfile : d.isFile w) (hp : p.isAbsolute)
    (hroot : atPlace (Disk.placeOf w) ≠ root p) :
    e.afresh.computeIncludes (d.delete w) p directives =
      e.afresh.computeIncludes d p directives := by
  have hlocate : d.locate? w = some (Disk.placeOf w) := by
    obtain ⟨f, hf⟩ := Option.isSome_iff_exists.mp hfile
    obtain ⟨place, hplace, -⟩ := Disk.file?_eq_some_iff_locate?.mp hf
    rw [hplace, ← Disk.placeFor?_of_locate? hplace, Disk.placeFor?_of_isAbsolute d hw]
  have hrootAbsolute : (root p).isAbsolute := by
    rw [root, Path.normalize?_of_isAbsolute hp]
    exact Path.isAbsolute_atPlace _
  refine computeIncludes_congr rfl (fun x directive => ?_) fun q hq => ?_
  · refine target?_of_existing? (fun c => ?_) _ _ _
    -- a path that leads to the file is the reported one, or relative: neither the document nor
    -- among the files
    refine (existing?_delete_of_isFile hfile c).imp_right ?_
    rintro ⟨x, hx, hplace⟩
    have hreduced := Path.isReduced_of_normalize? (existing?_eq_some_iff.mp hx).1
    have hlost (habsolute : x.isAbsolute) : x = atPlace (Disk.placeOf w) :=
      eq_atPlace_of_locate? hreduced habsolute (hplace.trans hlocate)
    refine ⟨x, hx, fun h => hroot ?_, fun h => hout (hlost (hfiles x h) ▸ h)⟩
    rw [← hlost (h ▸ hrootAbsolute), h]
  · have hne : d.locate? q ≠ d.locate? w := hlocate ▸ locate?_ne_of_mem_files hfiles hout hq
    rw [content_afresh, content_afresh, Disk.text?, Disk.text?, Disk.file?_delete_of_isFile hfile,
      if_neg hne]

omit hw hfiles hout

/-! ### Changes of the state -/

/-- A document that is edited leaves alone what was computed without its file. -/
lemma afresh_documents {u : Uri} (hsettings : e'.settings = e.settings)
    (hdocuments : ∀ v ≠ u, e'.document? v = e.document? v)
    (hout : ∀ q ∈ (e.afresh.computeIncludes d p directives).files, Uri.ofPath? q ≠ some u) :
    e'.afresh.computeIncludes d p directives = e.afresh.computeIncludes d p directives := by
  refine computeIncludes_congr (congrArg _ hsettings) (fun x directive => Or.inl ?_) fun q hq => ?_
  · show target? d e'.settings x directive = _
    rw [hsettings]
    rfl
  · have hopen : e'.openAt? q = e.openAt? q := by
      rw [openAt?, openAt?]
      cases hu : Uri.ofPath? q with
      | none => rfl
      | some v => exact hdocuments v fun h => hout q hq (h ▸ hu)
    rw [content_afresh, content_afresh, hopen]

/-- Settings that agree on what shapes the include graph compute the same. -/
lemma afresh_settings {settings : Settings} (h : e.settings.includesDiffer settings = false) :
    { e with settings }.afresh.computeIncludes d p directives =
      e.afresh.computeIncludes d p directives := by
  have hdepth : settings.maxIncludeDepth = e.settings.maxIncludeDepth := by
    simp only [Settings.includesDiffer, Bool.or_eq_false_iff, bne_eq_false_iff_eq] at h
    exact h.2.symm
  refine computeIncludes_congr hdepth (fun x directive => Or.inl ?_) fun q hq => ?_
  · exact target?_of_respelled h d x directive
  · rw [content_afresh, content_afresh]
    rfl

end Editor

end AutoItServer
