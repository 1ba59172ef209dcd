import AutoItServer.Editor.Query
import AutoItServer.Proofs.Header.Inserted

/-!
The command that inserts a fresh header above a function.

* `FunctionDef.freshDescription`: the description that is read in the fresh header of a definition.
  There is none if no parameter behind the first one starts with a letter
  (`freshDescription_eq_none`).
* `CommentInsertion.fresh`: a fresh header as lines to insert. `exists_above?_fresh` and `doc_fresh`
  say which header is found afterwards, and which documentation.
* `Editor.insertHeader_harmless` (**the command**): definitions and signatures stay, but for their
  places and what is said about the edited function, and a second time nothing is inserted.
* `Editor.insertHeader_describes`: a parameter that reads like the label of a description changes
  the documentation.
-/

namespace AutoItServer

open AutoItServer.Text (byteLength Terminates)

/-! ### A fresh header -/

namespace FunctionDef

variable {t : Text} {d : FunctionDef}

/-- The parameters of a definition. -/
def parameters (d : FunctionDef) : List Parameter :=
  (Parameter.split d.params).filterMap Parameter.parse?

/-- The description in the fresh header of a definition, read back, unless the header then names
another function. -/
def freshDescription (d : FunctionDef) : Option Text :=
  let header := Header.read (Header.generate d.name d.parameters)
  if header.name.all (Text.sameIgnoringCase · d.name) then header.description else none

lemma solid_name (hd : d ∈ findAll t) : Text.Solid d.name :=
  Text.solid_of_forall_not_isBlank (not_isBlank_of_mem_name hd).1 (not_isBlank_of_mem_name hd).2

lemma lf_not_mem_name (hd : d ∈ findAll t) : '\n' ∉ d.name :=
  fun h => (not_isBlank_of_mem_name hd).2 '\n' h (by decide)

lemma parameter_parts (hd : d ∈ findAll t) :
    ∀ p ∈ d.parameters, Header.OneLine p ∧ Text.Solid p.name := by
  intro p hp
  obtain ⟨entry, hentry, hparse⟩ := List.mem_filterMap.mp hp
  obtain ⟨hsolid, hname, hdefault⟩ := Parameter.parts_of_parse? hparse
  have hlf : '\n' ∉ entry := fun h => lf_not_mem_params hd (Parameter.split_subset hentry h)
  exact ⟨⟨fun h => hlf (hname h), fun value hvalue h => hlf (hdefault value hvalue h)⟩, hsolid⟩

/-- **No description** comes from parameters that do not start with a letter. -/
lemma freshDescription_eq_none (hd : d ∈ findAll t)
    (hletters : ∀ p ∈ d.parameters.tail, ¬ p.name.head?.any Char.isAlpha) :
    d.freshDescription = none := by
  have hfurther : ∀ p ∈ d.parameters.tail, Header.Progress.Undescribed (Header.furtherLine p) :=
    fun p hp => Header.Progress.undescribed_furtherLine
      (parameter_parts hd p (List.mem_of_mem_tail hp)).2 (hletters p hp)
  have hnone : (Header.read (Header.generate d.name d.parameters)).description = none :=
    Header.description_read_generate (solid_name hd) (lf_not_mem_name hd)
      (fun p hp => (parameter_parts hd p hp).1) hfurther
  rw [freshDescription, hnone]
  exact ite_self none

end FunctionDef

/-- The fresh header of a definition, to be inserted above it. -/
def CommentInsertion.fresh {t : Text} {d : FunctionDef}
    (hd : d ∈ FunctionDef.findAll t) {eol : Text}
    (heol : ∀ rest, Terminates eol rest) : CommentInsertion where
  text := t
  target := d
  found := hd
  new := Header.generate d.name d.parameters
  plain := Header.plain_of_mem_generate (FunctionDef.solid_name hd) (FunctionDef.lf_not_mem_name hd)
    (fun p hp => (FunctionDef.parameter_parts hd p hp).1) fun p hp =>
      (FunctionDef.parameter_parts hd p hp).2
  eol := eol
  terminates := heol

namespace CommentInsertion

variable {t eol : Text} {d : FunctionDef} (hd : d ∈ FunctionDef.findAll t)
  (heol : ∀ rest, Terminates eol rest)

include hd in
/-- The lines above a definition without header say nothing. -/
lemma isBlank_of_above? (hnone : Header.above? ((Text.lines t).map Line.text) d.line = none) :
    (Header.read (Header.blockAbove ((Text.lines t).map Line.text) d.line)).isBlank := by
  obtain ⟨up, l, down, hlines, -, hline, -⟩ := FunctionDef.exists_header_of_mem hd
  have hbound : ¬ d.line > ((Text.lines t).map Line.text).length := by
    simp [hlines, hline]
  rw [Header.above?, if_neg hbound] at hnone
  by_contra hblank
  rw [if_neg hblank] at hnone
  cases hnone

/-- **The header afterwards** has the name and the description of the fresh header. -/
lemma exists_above?_fresh (hnone : Header.above? ((Text.lines t).map Line.text) d.line = none) :
    ∃ header, Header.above? ((Text.lines (fresh hd heol).result).map Line.text)
        (d.line + (Header.generate d.name d.parameters).length) = some header ∧
      header.name = (Header.read (Header.generate d.name d.parameters)).name ∧
      header.description = (Header.read (Header.generate d.name d.parameters)).description := by
  have hblock : Header.blockAbove ((Text.lines (fresh hd heol).result).map Line.text)
      (d.line + (Header.generate d.name d.parameters).length) =
        Header.blockAbove ((Text.lines t).map Line.text) d.line ++
          Header.generate d.name d.parameters :=
    (fresh hd heol).blockAbove_result
  obtain ⟨hname, hdescription⟩ :=
    Header.read_append_generate (isBlank_of_above? hd hnone) d.name d.parameters
  have hsome : (Header.read (Header.generate d.name d.parameters)).name.isSome :=
    Header.isSome_name_read_generate (FunctionDef.solid_name hd) (FunctionDef.lf_not_mem_name hd)
      fun p hp => (FunctionDef.parameter_parts hd p hp).1
  refine ⟨_, ?_, hname, hdescription⟩
  have hbound : ¬ d.line + (Header.generate d.name d.parameters).length >
      ((Text.lines (fresh hd heol).result).map Line.text).length := by
    obtain ⟨above, below, hcut⟩ := (fresh hd heol).exists_cut
    have hline : (Text.lines above).length = d.line := hcut.line
    rw [hcut.texts.2]
    simp [hline, fresh]
  rw [Header.above?, if_neg hbound, hblock]
  refine if_neg ?_
  rw [← hname, Option.isSome_iff_exists] at hsome
  obtain ⟨name, hsome⟩ := hsome
  simp [Header.isBlank, hsome]

/-- **The documentation** of the edited definition is its fresh description, if it has one. -/
lemma doc_fresh (hnone : Header.above? ((Text.lines t).map Line.text) d.line = none) (file : Text) :
    (Signature.ofDef ((Text.lines (fresh hd heol).result).map Line.text) file
        (d.relocated (fresh hd heol).lineAfter (fresh hd heol).offsetAfter)).doc =
      d.freshDescription.getD (Signature.ofDef ((Text.lines t).map Line.text) file d).doc := by
  obtain ⟨header, habove, hname, hdescription⟩ := exists_above?_fresh hd heol hnone
  have hline : (d.relocated (fresh hd heol).lineAfter (fresh hd heol).offsetAfter).line =
      d.line + (Header.generate d.name d.parameters).length := shift_of_le (Nat.le_refl _)
  have hbefore : (Signature.ofDef ((Text.lines t).map Line.text) file d).doc =
      Signature.includedFrom file := by
    simp [Signature.ofDef, Signature.headerOf?, hnone]
  rw [hbefore]
  simp only [Signature.ofDef, Signature.headerOf?, hline, habove]
  rw [FunctionDef.freshDescription, ← hname, ← hdescription]
  by_cases hsame : header.name.all (Text.sameIgnoringCase · d.name)
  · simp [FunctionDef.relocated, Option.filter, hsame]
  · simp [FunctionDef.relocated, Option.filter, hsame]

end CommentInsertion

/-! ### The command -/

/-- The text after an insertion. -/
def Insertion.result (i : Insertion) (t : Text) : Text :=
  let offset := Text.positionToByte i.position t
  Text.takeBytes offset t ++ (i.text ++ Text.dropBytes offset t)

namespace Editor

open CommentInsertion (fresh)

variable {e : Editor} {u : Uri} {n : Nat} {doc : Document} {i : Insertion}

/-- The lines of a header end as those of the document do. -/
lemma exists_insertion (hdoc : e.document? u = some doc) (hi : e.insertHeader u n = some i) :
    ∃ d eol, d ∈ FunctionDef.findAll doc.text ∧ (∀ rest, Terminates eol rest) ∧ d.line = n ∧
      Header.above? ((Text.lines doc.text).map Line.text) d.line = none ∧
      i = ⟨u, ⟨d.line, 0⟩, (Header.generate d.name d.parameters).flatMap (· ++ eol)⟩ := by
  rw [insertHeader, hdoc, Option.bind_some] at hi
  dsimp only at hi
  obtain ⟨d, hfind, hi⟩ := Option.bind_eq_some_iff.mp hi
  have hline : d.line = n := by simpa using List.find?_some hfind
  split at hi
  · cases hi
  · rename_i hnone
    refine ⟨d, if Text.occursIn ['\r', '\n'] doc.text then ['\r', '\n'] else ['\n'],
      List.mem_of_find?_eq_some hfind, fun rest => ?_, hline, by simpa using hnone, ?_⟩
    · split
      · exact .crlf rest
      · exact .lf rest
    · rw [hline]
      exact (Option.some.inj hi).symm

/-- A document whose function has a header is left alone. -/
lemma insertHeader_eq_none (hdoc : e.document? u = some doc)
    (habove : (Header.above? ((Text.lines doc.text).map Line.text) n).isSome) :
    e.insertHeader u n = none := by
  rw [insertHeader, hdoc, Option.bind_some]
  dsimp only
  cases hfind : (FunctionDef.findAll doc.text).find? fun f => f.line = n with
  | none => rfl
  | some d =>
    have hline : d.line = n := by simpa using List.find?_some hfind
    rw [Option.bind_some, hline, if_pos habove]

/-- **Inserting a fresh header** leaves the definitions and the other signatures alone, but for
their places, and is done once. The signature of the edited function keeps its name, its label and
its parameters. Its documentation changes only if a description is read in the fresh header, and for
that a parameter has to start with a letter. -/
theorem insertHeader_harmless (hdoc : e.document? u = some doc) (hi : e.insertHeader u n = some i) :
    ∃ d ∈ FunctionDef.findAll doc.text, d.line = n ∧
      FunctionDef.findAll (i.result doc.text) = (FunctionDef.findAll doc.text).map
        (FunctionDef.relocated (shift n (i.text.count '\n')) (shift d.offset (byteLength i.text))) ∧
      (∀ e' doc', document? e' u = some doc' → doc'.text = i.result doc.text →
        e'.insertHeader u (n + i.text.count '\n') = none) ∧
      (∀ file, (Signature.ofText (i.result doc.text) file).keys =
        (Signature.ofText doc.text file).keys ∧
        ∀ key s, (Signature.ofText doc.text file).find? key = some s →
          ∃ s', (Signature.ofText (i.result doc.text) file).find? key = some s' ∧
            s.Follows (shift d.offset (byteLength i.text)) s' ∧
            (s.offset ≠ some d.offset → s' = s.moved (shift d.offset (byteLength i.text))) ∧
            (s.offset = some d.offset → s'.doc = d.freshDescription.getD s.doc)) ∧
      ((∀ p ∈ d.parameters.tail, ¬ p.name.head?.any Char.isAlpha) → d.freshDescription = none) := by
  obtain ⟨d, eol, hd, heol, rfl, hnone, rfl⟩ := exists_insertion hdoc hi
  have hplace : Text.positionToByte ⟨d.line, 0⟩ doc.text = d.offset :=
    (fresh hd heol).positionToByte_target
  have hcount : ((Header.generate d.name d.parameters).flatMap (· ++ eol)).count '\n' =
      (Header.generate d.name d.parameters).length := (fresh hd heol).count_added
  have hresult : Insertion.result ⟨u, ⟨d.line, 0⟩,
        (Header.generate d.name d.parameters).flatMap (· ++ eol)⟩ doc.text =
      (fresh hd heol).result := by
    simp only [Insertion.result, hplace]
    rfl
  rw [hresult, hcount]
  refine ⟨d, hd, rfl, (fresh hd heol).findAll_result, ?_, fun file => ?_,
    FunctionDef.freshDescription_eq_none hd⟩
  · intro e' doc' hdoc' htext
    obtain ⟨header, habove, -⟩ := CommentInsertion.exists_above?_fresh hd heol hnone
    exact insertHeader_eq_none hdoc' (by rw [htext, habove]; rfl)
  · refine ⟨(fresh hd heol).keys_result file, fun key s hs => ?_⟩
    obtain ⟨c, hc, rfl, hfind⟩ := CommentInsertion.exists_of_find? (e := fresh hd heol) hs
    refine ⟨_, hfind, Signature.follows_ofDef _ _ file c _ _, fun hoffset => ?_, fun hoffset => ?_⟩
    · exact CommentInsertion.ofDef_result (e := fresh hd heol) hc
        (fun heq => hoffset (heq ▸ rfl)) file
    · obtain rfl := FunctionDef.eq_of_offset_eq hc hd (Option.some.inj hoffset)
      exact CommentInsertion.doc_fresh hd heol hnone file

/-- A document for two examples. -/
def pageUri : Uri :=
  ⟨Uri.fileScheme, some [], .segments ["page.au3".toList], none, none⟩

/-- An editor in which the document has a text. -/
def pageEditor (t : Text) : Editor :=
  (Editor.start Settings.standard).openDocument pageUri t none

/-- A function below a note, with a further parameter, above another function. -/
def notedText : Text :=
  "; a note\r\nFunc A(ByRef $x, $y = 'Name .: B')\r\nEndFunc\r\nFunc B()\r\nEndFunc".toList

/-- A header is inserted above the function, both functions are found behind it, and none gets a
description. -/
theorem insertHeader_harmless_noted :
    ∃ i d, (pageEditor notedText).insertHeader pageUri 1 = some i ∧
      d ∈ FunctionDef.findAll notedText ∧ d.line = 1 ∧
      FunctionDef.findAll (i.result notedText) = (FunctionDef.findAll notedText).map
        (FunctionDef.relocated (shift 1 (i.text.count '\n')) (shift d.offset (byteLength i.text))) ∧
      d.freshDescription = none := by
  have hdoc : (pageEditor notedText).document? pageUri = some ⟨notedText, none, 0⟩ := by
    decide +kernel
  have hsome : ((pageEditor notedText).insertHeader pageUri 1).isSome := by decide +kernel
  have hletters : ∀ d ∈ FunctionDef.findAll notedText,
      ∀ p ∈ d.parameters.tail, ¬ p.name.head?.any Char.isAlpha := by
    decide +kernel
  obtain ⟨i, hi⟩ := Option.isSome_iff_exists.mp hsome
  obtain ⟨d, hd, hline, hfound, -, -, hnone⟩ := insertHeader_harmless hdoc hi
  exact ⟨i, d, hi, hd, hline, hfound, hnone (hletters d hd)⟩

/-- A function whose second parameter reads like the label of a description. -/
def describedText : Text :=
  "Func F($a, Description .: x)\nEndFunc".toList

/-- The fresh header of such a function changes its documentation. -/
theorem insertHeader_describes :
    ∃ i ∈ (pageEditor describedText).insertHeader pageUri 0,
      ((Signature.ofText describedText "page.au3".toList).find? ['f']).map Signature.doc =
        some "Included from page.au3".toList ∧
      ((Signature.ofText (i.result describedText) "page.au3".toList).find? ['f']).map
        Signature.doc =
        some "x     - A value.".toList := by
  decide +kernel

end Editor

end AutoItServer
