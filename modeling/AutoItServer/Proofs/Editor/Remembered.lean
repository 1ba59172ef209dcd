import AutoItServer.Proofs.Editor.Afresh
import AutoItServer.Proofs.Include.Precedence
import AutoItServer.Proofs.Include.Reachability

/-!
Includes served from memory, compared with includes computed afresh.

An entry is served for every text whose directives have the key that the entry was computed with.
The key forgets the order of the directives and the case of the names, and neither is without
effect.

* `Include.Agree`, `find?_signatures_of_agree`: where the files that define a name agree, their
  order does not matter.
* `Include.Complete`: the depth limit cut nothing off.
* `mem_reachable_iff_of_key` : texts with the same key reach the same files, when the case of names
  makes no difference and the limit cuts nothing off.
* `served_eq_fresh` (**what memory keeps right**): an entry served for another text is the one
  computed afresh if the directives are spelled alike in the same order. If they are only the same
  up to order and harmless changes of case, and the limit cuts nothing off, it holds the same files,
  and the same signature for every name on which the files that define it agree.
* `served_ne_fresh`: texts with the key of another one that are served other signatures, and other
  files, than they have: by the order of the directives, by the case of a name, and at the depth
  limit.
-/

namespace AutoItServer

namespace Include

/-! ### Signatures of several files -/

/-- The files that define a name agree on its signature. -/
def Agree (content : Content) (files : List Path) (name : Text) : Prop :=
  ∀ p ∈ files, ∀ q ∈ files, ∀ s s', signatureIn? content name p = some s →
    signatureIn? content name q = some s' → s = s'

variable {content : Content} {files files' : List Path} {name : Text}

/-- Where the files that define a name agree, their order does not matter. -/
lemma find?_signatures_of_agree (hagree : Agree content files' name)
    (hfiles : ∀ q, q ∈ files ↔ q ∈ files') :
    (signatures content files).find? name = (signatures content files').find? name := by
  rw [find?_signatures, find?_signatures]
  cases h : files.reverse.findSome? (signatureIn? content name) with
  | none =>
    rw [List.findSome?_eq_none_iff] at h
    refine (List.findSome?_eq_none_iff.mpr fun q hq => h q ?_).symm
    rwa [List.mem_reverse, hfiles, ← List.mem_reverse]
  | some s =>
    obtain ⟨p, hp, hs⟩ := List.exists_of_findSome?_eq_some h
    rw [List.mem_reverse, hfiles] at hp
    cases h' : files'.reverse.findSome? (signatureIn? content name) with
    | none =>
      rw [List.findSome?_eq_none_iff] at h'
      rw [h' p (List.mem_reverse.mpr hp)] at hs
      cases hs
    | some s' =>
      obtain ⟨q, hq, hs'⟩ := List.exists_of_findSome?_eq_some h'
      rw [hagree p hp q (List.mem_reverse.mp hq) s s' hs hs']

/-! ### Files of texts with the same key -/

variable {d : Disk} {settings : Settings} {document : Path} {t t' : Text}

/-- The depth limit cut nothing off: what a listed file includes is listed too. -/
def Complete (d : Disk) (settings : Settings) (content : Content) (document : Path) (t : Text) :
    Prop :=
  ∀ x ∈ reachable d settings content document t, ∀ y ∈ linksOf d settings content document t x,
    y = root document ∨ y ∈ reachable d settings content document t

/-- Directives of two texts that differ only in the case of their names lead to the same file. -/
def CaseHarmless (d : Disk) (settings : Settings) (document : Path) (t t' : Text) : Prop :=
  ∀ x ∈ Directive.findAll t, ∀ y ∈ Directive.findAll t', y.kind = x.kind →
    Text.lower y.spec = Text.lower x.spec →
    target? d settings document y = target? d settings document x

lemma mem_reachable_iff_connected (h : Complete d settings content document t) (q : Path) :
    q ∈ reachable d settings content document t ↔ q ∈ connected d settings content document t :=
  mem_iff_of_closed (fun _ => mem_connected_of_mem_reachable)
    (fun _ => mem_reachable_of_mem_root) h q

/-- Texts with the same key name the same files, when case is harmless. -/
lemma mem_targets_of_key
    (hkey : IncludeKey.ofDirectives (Directive.findAll t) =
      IncludeKey.ofDirectives (Directive.findAll t'))
    (hcase : CaseHarmless d settings document t t') (q : Path) :
    q ∈ targets d settings document (Directive.findAll t) ↔
      q ∈ targets d settings document (Directive.findAll t') := by
  simp only [targets, List.mem_filterMap]
  constructor
  · rintro ⟨x, hx, hq⟩
    obtain ⟨y, hy, hkind, hspec⟩ := IncludeKey.exists_mem_of_ofDirectives_eq hkey hx
    exact ⟨y, hy, (hcase x hx y hy hkind hspec).trans hq⟩
  · rintro ⟨y, hy, hq⟩
    obtain ⟨x, hx, hkind, hspec⟩ := IncludeKey.exists_mem_of_ofDirectives_eq hkey.symm hy
    exact ⟨x, hx, (hcase x hx y hy hkind.symm hspec.symm).symm.trans hq⟩

/-- What is joined to a document depends on which files it names, not on how. -/
lemma joined_of_targets
    (h : ∀ q, q ∈ targets d settings document (Directive.findAll t) →
      q ∈ targets d settings document (Directive.findAll t')) {n : Nat} {q : Path}
    (hq : Joined d settings content document t n q) :
    Joined d settings content document t' n q := by
  induction hq with
  | start => exact .start
  | @step n x y chain hx hy ih =>
    refine .step ih hx ?_
    simp only [linksOf, links] at hy ⊢
    split_ifs at hy ⊢ with hroot
    · exact h y hy
    · exact hy

/-- **Texts with the same key reach the same files**, when the case of names makes no difference and
the limit cuts nothing off. -/
lemma mem_reachable_iff_of_key
    (hkey : IncludeKey.ofDirectives (Directive.findAll t) =
      IncludeKey.ofDirectives (Directive.findAll t'))
    (hcase : CaseHarmless d settings document t t')
    (hall : Complete d settings content document t)
    (hall' : Complete d settings content document t') (q : Path) :
    q ∈ reachable d settings content document t ↔ q ∈ reachable d settings content document t' := by
  have htargets := mem_targets_of_key hkey hcase
  rw [mem_reachable_iff_connected hall, mem_reachable_iff_connected hall']
  constructor
  · rintro ⟨hne, n, hn⟩
    exact ⟨hne, n, joined_of_targets (fun q => (htargets q).mp) hn⟩
  · rintro ⟨hne, n, hn⟩
    exact ⟨hne, n, joined_of_targets (fun q => (htargets q).mpr) hn⟩

end Include

namespace Editor

open Include

/-! ### Served and computed entries -/

/-- An entry with the key of the directives is served. -/
lemma includesOf_of_remembered {e : Editor} {d : Disk} {u : Uri} {p : Path} {t : Text}
    {entry : IncludeEntry} (hentry : e.includeCache.entry? u = some entry)
    (hkey : entry.key = .ofDirectives (Directive.findAll t)) :
    e.includesOf d u p t = (e, entry) := by
  have hget : e.includeCache.get? u (.ofDirectives (Directive.findAll t)) = some entry := by
    simp [IncludeCache.get?, hentry, hkey]
  simp only [includesOf, hget]

/-- **What memory keeps right.** Let an entry be remembered that was computed in this state for a
text with the same key. If the directives of the other text are spelled alike in the same order, it
is served what is computed afresh. If directives that differ only in case lead to the same file, and
the depth limit cuts nothing off for either text, it is served the files that are found afresh, and
the same signature for every name on which the files that define it agree. -/
theorem served_eq_fresh (e : Editor) (d : Disk) (u : Uri) (p : Path) (t t' : Text)
    (hcached : e.includeCache.entry? u = some (e.computeIncludes d p (Directive.findAll t)))
    (hkey : IncludeKey.ofDirectives (Directive.findAll t) =
      IncludeKey.ofDirectives (Directive.findAll t')) :
    ((Directive.findAll t).map (fun x => (x.kind, x.spec)) =
        (Directive.findAll t').map (fun x => (x.kind, x.spec)) →
      (e.includesOf d u p t').2 = e.computeIncludes d p (Directive.findAll t')) ∧
    (CaseHarmless d e.settings p t t' → Complete d e.settings (e.content d) p t →
      Complete d e.settings (e.content d) p t' →
      (∀ q, q ∈ (e.includesOf d u p t').2.files ↔
        q ∈ (e.computeIncludes d p (Directive.findAll t')).files) ∧
      ∀ name, Agree (e.content d) (e.computeIncludes d p (Directive.findAll t')).files name →
        (e.includesOf d u p t').2.signatures.find? name =
          (e.computeIncludes d p (Directive.findAll t')).signatures.find? name) := by
  rw [includesOf_of_remembered hcached hkey]
  refine ⟨fun hspelled => ?_, fun hcase hall hall' => ?_⟩
  · exact computeIncludes_of_spelled hspelled
  · have hfiles := mem_reachable_iff_of_key hkey hcase hall hall'
    exact ⟨hfiles, fun name hagree => find?_signatures_of_agree hagree hfiles⟩

/-! ### Two texts with one key -/

/-- Two files that define the same function, a third that defines another one, and the name of the
first again in capitals. -/
def twinDisk : Disk :=
  (((Disk.empty.write (.ofString "/a.au3") ⟨File.encode "Func F($x)".toList, 0⟩).write
    (.ofString "/b.au3") ⟨File.encode "Func F($y)".toList, 0⟩).write
    (.ofString "/c.au3") ⟨File.encode "Func G($z)".toList, 0⟩).write
    (.ofString "/A.au3") ⟨[], 0⟩

/-- The document beside them. -/
def twinDocument : Path :=
  .ofString "/main.au3"

/-- The identifier of the document. -/
def twinUri : Uri :=
  ⟨Uri.fileScheme, some [], .segments ["main.au3".toList], none, none⟩

/-- An editor that remembers what the document includes with a text on some disk. -/
def rememberingEditor (settings : Settings) (d : Disk) (t : Text) : Editor :=
  let e := Editor.start settings
  { e with
    includeCache := (e.includeCache.store twinUri 0
      (e.computeIncludes d twinDocument (Directive.findAll t))).1 }

lemma rememberingEditor_remembers (settings : Settings) (d : Disk) (t : Text) :
    (rememberingEditor settings d t).includeCache.entry? twinUri =
      some ((rememberingEditor settings d t).computeIncludes d twinDocument
        (Directive.findAll t)) := by
  rfl

/-- An editor that remembers what the document includes with a text. -/
def twinEditor (t : Text) : Editor :=
  rememberingEditor Settings.standard twinDisk t

lemma twinEditor_remembers (t : Text) : (twinEditor t).includeCache.entry? twinUri =
    some ((twinEditor t).computeIncludes twinDisk twinDocument (Directive.findAll t)) :=
  rememberingEditor_remembers _ _ t

/-- Three files, each but the last one with a directive for the next. -/
def chainDisk : Disk :=
  ((Disk.empty.write (.ofString "/a.au3") ⟨File.encode "#include \"b.au3\"".toList, 0⟩).write
    (.ofString "/b.au3") ⟨File.encode "#include \"c.au3\"".toList, 0⟩).write
    (.ofString "/c.au3") ⟨[], 0⟩

/-- An editor that follows directives over two levels, with what it remembers of a text on that
disk. -/
def chainEditor (t : Text) : Editor :=
  rememberingEditor { Settings.standard with maxIncludeDepth := 2 } chainDisk t

lemma chainEditor_remembers (t : Text) : (chainEditor t).includeCache.entry? twinUri =
    some ((chainEditor t).computeIncludes chainDisk twinDocument (Directive.findAll t)) :=
  rememberingEditor_remembers _ _ t

/-- A document that includes two files. -/
def twoIncludes (first second : String) : Text :=
  ("#include \"" ++ first ++ "\"\n#include \"" ++ second ++ "\"").toList

lemma key_twoIncludes_swap :
    IncludeKey.ofDirectives (Directive.findAll (twoIncludes "a.au3" "b.au3")) =
    IncludeKey.ofDirectives (Directive.findAll (twoIncludes "b.au3" "a.au3")) :=
  IncludeKey.ofDirectives_eq_iff.mpr (by decide +kernel)

lemma key_twoIncludes_case :
    IncludeKey.ofDirectives (Directive.findAll (twoIncludes "a.au3" "b.au3")) =
    IncludeKey.ofDirectives (Directive.findAll (twoIncludes "A.au3" "b.au3")) :=
  IncludeKey.ofDirectives_eq_iff.mpr (by decide +kernel)

/-- **What memory gets wrong**: with the files swapped, a function that both define is served as the
wrong one of them says; with a name in capitals, a file is served that the document does not
include; and at the depth limit a file is missing that is reached from the second file only when
that comes first. -/
theorem served_ne_fresh :
    (IncludeKey.ofDirectives (Directive.findAll (twoIncludes "a.au3" "b.au3")) =
        IncludeKey.ofDirectives (Directive.findAll (twoIncludes "b.au3" "a.au3")) ∧
      ((twinEditor (twoIncludes "a.au3" "b.au3")).includesOf twinDisk twinUri twinDocument
          (twoIncludes "b.au3" "a.au3")).2.signatures.find? ['f'] ≠
        ((twinEditor (twoIncludes "a.au3" "b.au3")).computeIncludes twinDisk twinDocument
          (Directive.findAll (twoIncludes "b.au3" "a.au3"))).signatures.find? ['f']) ∧
    (IncludeKey.ofDirectives (Directive.findAll (twoIncludes "a.au3" "b.au3")) =
        IncludeKey.ofDirectives (Directive.findAll (twoIncludes "A.au3" "b.au3")) ∧
      Path.ofString "/a.au3" ∈ ((twinEditor (twoIncludes "a.au3" "b.au3")).includesOf
        twinDisk twinUri
        twinDocument (twoIncludes "A.au3" "b.au3")).2.files ∧
      Path.ofString "/a.au3" ∉ ((twinEditor (twoIncludes "a.au3" "b.au3")).computeIncludes twinDisk
        twinDocument (Directive.findAll (twoIncludes "A.au3" "b.au3"))).files) ∧
    Path.ofString "/c.au3" ∉ ((chainEditor (twoIncludes "a.au3" "b.au3")).includesOf
      chainDisk twinUri
        twinDocument (twoIncludes "b.au3" "a.au3")).2.files ∧
      Path.ofString "/c.au3" ∈
        ((chainEditor (twoIncludes "a.au3" "b.au3")).computeIncludes chainDisk
        twinDocument (Directive.findAll (twoIncludes "b.au3" "a.au3"))).files := by
  refine ⟨⟨key_twoIncludes_swap, ?_⟩, ⟨key_twoIncludes_case, ?_, ?_⟩, ?_, ?_⟩
  · rw [includesOf_of_remembered (twinEditor_remembers _) key_twoIncludes_swap]
    decide +kernel
  · rw [includesOf_of_remembered (twinEditor_remembers _) key_twoIncludes_case]
    decide +kernel
  · decide +kernel
  · rw [includesOf_of_remembered (chainEditor_remembers _) key_twoIncludes_swap]
    decide +kernel
  · decide +kernel

/-- Two files that define different functions may change places. -/
theorem served_eq_fresh_swap :
    (∀ q, q ∈ ((twinEditor (twoIncludes "a.au3" "c.au3")).includesOf twinDisk twinUri twinDocument
        (twoIncludes "c.au3" "a.au3")).2.files ↔
      q ∈ ((twinEditor (twoIncludes "a.au3" "c.au3")).computeIncludes twinDisk twinDocument
        (Directive.findAll (twoIncludes "c.au3" "a.au3"))).files) ∧
    ((twinEditor (twoIncludes "a.au3" "c.au3")).includesOf twinDisk twinUri twinDocument
        (twoIncludes "c.au3" "a.au3")).2.signatures.find? ['f'] =
      ((twinEditor (twoIncludes "a.au3" "c.au3")).computeIncludes twinDisk twinDocument
        (Directive.findAll (twoIncludes "c.au3" "a.au3"))).signatures.find? ['f'] := by
  have h := (served_eq_fresh (twinEditor (twoIncludes "a.au3" "c.au3")) twinDisk
      twinUri twinDocument
    (twoIncludes "a.au3" "c.au3") (twoIncludes "c.au3" "a.au3") (twinEditor_remembers _)
    (IncludeKey.ofDirectives_eq_iff.mpr (by decide +kernel))).2
    (by unfold CaseHarmless; decide +kernel) (by unfold Complete; decide +kernel)
    (by unfold Complete; decide +kernel)
  refine ⟨h.1, h.2 _ ?_⟩
  -- only one of the two files defines the function
  have hone : ∀ q ∈ ((twinEditor (twoIncludes "a.au3" "c.au3")).computeIncludes
        twinDisk twinDocument
      (Directive.findAll (twoIncludes "c.au3" "a.au3"))).files,
      q = .ofString "/a.au3" ∨ signatureIn? ((twinEditor (twoIncludes "a.au3" "c.au3")).content
        twinDisk) ['f'] q = none := by
    decide +kernel
  intro x hx y hy s s' hs hs'
  rcases hone x hx with rfl | hx
  · rcases hone y hy with rfl | hy
    · exact Option.some.inj (hs.symm.trans hs')
    · simp [hy] at hs'
  · simp [hx] at hs

end Editor

end AutoItServer
