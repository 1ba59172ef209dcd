import AutoItServer.Document.Basic
import AutoItServer.Proofs.Text.Boundary

/-!
Changes of a document are splices of its text.

A document counts characters, and its lines end at every kind of line end. A position is turned into
a byte offset by line feeds alone. Where `LF` and `CRLF` are the only line ends, both find the same
place.

* `Document.PlainBreaks`: the only line ends of a text are `LF` and `CRLF`.
* `Document.Continues`: a character after which a line of the document goes on.
* `breakLines_of_lineStart?`: the lines before the start of a line, by either count.
* `exists_cut` (**one place**): a position on a line that exists cuts the text once, whichever way
  it is counted, and never between `CR` and `LF`.
* `apply_range`: one change of a range.
* `edits_eq_splices`: every change of a run.
-/

namespace AutoItServer

namespace Document

open Text (positionToByte splitAtByte? lineStart? byteLength)

/-! ### Texts with plain line ends -/

/-- The only line ends are `LF` and `CRLF`. -/
def PlainBreaks : Text → Prop
  | [] => True
  | c :: cs => (isBreak c → c = '\n' ∨ c = '\r' ∧ cs.head? = some '\n') ∧ PlainBreaks cs

instance decidablePlainBreaks : (t : Text) → Decidable (PlainBreaks t)
  | [] => inferInstanceAs (Decidable True)
  | c :: cs =>
    have := decidablePlainBreaks cs
    inferInstanceAs (Decidable
      ((isBreak c → c = '\n' ∨ c = '\r' ∧ cs.head? = some '\n') ∧ PlainBreaks cs))

variable {t x y : Text}

/-- Plain texts one after the other are plain. -/
lemma PlainBreaks.append (hx : PlainBreaks x) (hy : PlainBreaks y) : PlainBreaks (x ++ y) := by
  induction x with
  | nil => exact hy
  | cons c x ih =>
    refine ⟨fun hc => (hx.1 hc).imp_right fun ⟨hcr, hlf⟩ => ⟨hcr, ?_⟩, ih hx.2⟩
    obtain ⟨x, rfl⟩ := List.head?_eq_some_iff.mp hlf
    rfl

/-- The end of a plain text is plain. -/
lemma PlainBreaks.right (h : PlainBreaks (x ++ y)) : PlainBreaks y := by
  induction x with
  | nil => exact h
  | cons c x ih => exact ih h.2

/-- The beginning of a plain text is plain, unless it ends between `CR` and `LF`. -/
lemma PlainBreaks.left (h : PlainBreaks (x ++ y)) (hcr : x.getLast? ≠ some '\r') :
    PlainBreaks x := by
  induction x with
  | nil => trivial
  | cons c x ih =>
    cases x with
    | nil =>
      refine ⟨fun hc => (h.1 hc).imp_right fun ⟨hc, _⟩ => ?_, trivial⟩
      exact absurd (congrArg some hc) hcr
    | cons d x => exact ⟨h.1, ih h.2 (by rwa [List.getLast?_cons_cons] at hcr)⟩

/-! ### Lines -/

lemma breakLines_lf (t : Text) : breakLines ('\n' :: t) = ['\n'] :: breakLines t := by
  rw [breakLines, if_pos (by decide)]
  intro cs h
  exact absurd h (by decide)

/-- A line goes on after a character that ends none, and between `CR` and `LF`. -/
def Continues (c : Char) (t : Text) : Prop :=
  isBreak c → c = '\r' ∧ t.head? = some '\n'

instance (c : Char) (t : Text) : Decidable (Continues c t) :=
  inferInstanceAs (Decidable (_ → _))

/-- A line that goes on. -/
lemma breakLines_of_continues {c : Char} {line : Text} {lines : List Text} (h : Continues c t)
    (ht : breakLines t = line :: lines) : breakLines (c :: t) = (c :: line) :: lines := by
  by_cases hbreak : isBreak c
  · obtain ⟨rfl, hlf⟩ := h hbreak
    obtain ⟨t, rfl⟩ : ∃ s, t = '\n' :: s := List.head?_eq_some_iff.mp hlf
    rw [breakLines_lf] at ht
    rw [breakLines, ← (List.cons.inj ht).1, (List.cons.inj ht).2]
  · rw [breakLines, if_neg hbreak, ht]
    rintro cs rfl
    exact absurd (by decide) hbreak

/-- In a plain text a line goes on with every character but `LF`. -/
lemma breakLines_cons {c : Char} {line : Text} {lines : List Text} (h : PlainBreaks (c :: t))
    (hc : c ≠ '\n') (ht : breakLines t = line :: lines) :
    breakLines (c :: t) = (c :: line) :: lines :=
  breakLines_of_continues (fun hbreak => (h.1 hbreak).resolve_left hc) ht

/-- **The start of a line**, counted by line feeds, is the start of the same line of the
document. -/
lemma breakLines_of_lineStart? {n offset : Nat} {rest : Text} (h : PlainBreaks t)
    (hstart : lineStart? n t = some (offset, rest)) :
    ∃ front, breakLines t = front ++ breakLines rest ∧ front.length = n ∧
      t = front.flatten ++ rest ∧ offset = byteLength front.flatten ∧
      front.flatten.getLast? = if n = 0 then none else some '\n' := by
  induction t generalizing n offset with
  | nil =>
    cases n with
    | zero =>
      obtain ⟨rfl, rfl⟩ := Prod.mk.inj (Option.some.inj hstart)
      exact ⟨[], rfl, rfl, rfl, rfl, rfl⟩
    | succ n => cases hstart
  | cons c t ih =>
    cases n with
    | zero =>
      obtain ⟨rfl, rfl⟩ := Prod.mk.inj (Option.some.inj hstart)
      exact ⟨[], rfl, rfl, rfl, rfl, rfl⟩
    | succ n =>
      rw [lineStart?] at hstart
      obtain ⟨⟨offset', rest'⟩, hnext, hpair⟩ := Option.map_eq_some_iff.mp hstart
      obtain ⟨rfl, rfl⟩ := Prod.mk.inj hpair
      obtain ⟨front, hlines, hlength, htext, hoffset, hlast⟩ := ih h.2 hnext
      by_cases hc : c = '\n'
      · subst hc
        rw [if_pos rfl] at hlength hlast
        refine ⟨['\n'] :: front, ?_, ?_, ?_, ?_, ?_⟩
        · rw [breakLines_lf, hlines, List.cons_append]
        · rw [List.length_cons, hlength]
        · rw [List.flatten_cons, List.append_assoc, ← htext, List.singleton_append]
        · rw [List.flatten_cons, Text.byteLength_append, hoffset]
          rfl
        · rw [List.flatten_cons, List.getLast?_append, hlast, if_neg (Nat.succ_ne_zero n)]
          split_ifs <;> rfl
      · rw [if_neg hc] at hlength hlast
        -- the first line before the start goes on with the character
        obtain ⟨line, lines, rfl⟩ := List.exists_cons_of_length_eq_add_one hlength
        rw [List.cons_append] at hlines
        refine ⟨(c :: line) :: lines, ?_, hlength, ?_, ?_, ?_⟩
        · rw [breakLines_cons h hc hlines, List.cons_append]
        · rw [List.flatten_cons, List.cons_append, List.cons_append, ← List.flatten_cons, ← htext]
        · rw [List.flatten_cons, List.cons_append, Text.byteLength_cons, hoffset, List.flatten_cons]
        · rw [List.flatten_cons] at hlast
          rw [List.flatten_cons, List.cons_append, List.getLast?_cons, hlast]
          rfl

/-- **A column** of the first line cuts a plain text once, counted in characters or in bytes, and
before its first `CR`. -/
lemma exists_column_cut (h : PlainBreaks t) (column : Nat) :
    ∃ line lines x y, breakLines t = line :: lines ∧ t = x ++ y ∧
      columnIndex column line = x.length ∧
      Text.columnToByte column (Text.firstLine t) = byteLength x ∧ '\r' ∉ x := by
  induction t generalizing column with
  | nil =>
    refine ⟨[], [], [], [], rfl, rfl, rfl, ?_, List.not_mem_nil⟩
    rw [Text.firstLine_nil, Text.columnToByte, Text.byteLength_nil]
  | cons c t ih =>
    by_cases hlf : c = '\n'
    · subst hlf
      refine ⟨['\n'], breakLines t, [], '\n' :: t, breakLines_lf t, rfl, ?_, ?_, List.not_mem_nil⟩
      · cases column <;> rfl
      · rw [Text.firstLine_lf, Text.columnToByte, Text.byteLength_nil]
    · by_cases hcr : c = '\r'
      · subst hcr
        obtain ⟨-, hhead⟩ := (h.1 (by decide)).resolve_left hlf
        obtain ⟨t, rfl⟩ : ∃ s, t = '\n' :: s := List.head?_eq_some_iff.mp hhead
        refine ⟨['\r', '\n'], breakLines t, [], '\r' :: '\n' :: t, ?_, rfl, ?_, ?_,
          List.not_mem_nil⟩
        · exact breakLines_cons h hlf (breakLines_lf t)
        · cases column <;> rfl
        · rw [Text.firstLine_crlf, Text.columnToByte, Text.byteLength_nil]
      · rw [Text.firstLine_cons hlf hcr]
        cases column with
        | zero =>
          obtain ⟨line, lines, -, -, hlines, -⟩ := ih h.2 0
          exact ⟨c :: line, lines, [], c :: t, breakLines_cons h hlf hlines, rfl, rfl, rfl,
            List.not_mem_nil⟩
        | succ column =>
          obtain ⟨line, lines, x, y, hlines, rfl, hindex, hbyte, hx⟩ :=
            ih h.2 (column + 1 - charUnits c)
          refine ⟨c :: line, lines, c :: x, y, breakLines_cons h hlf hlines, rfl, ?_, ?_, ?_⟩
          · rw [columnIndex, if_neg (by simp [hlf, hcr]), hindex, List.length_cons, Nat.add_comm]
          · rw [Text.columnToByte, hbyte, Text.byteLength_cons]
          · rw [List.mem_cons, not_or]
            exact ⟨Ne.symm hcr, hx⟩

/-! ### Positions -/

/-- Whether a text has a line with an index. -/
def HasLine (t : Text) (n : Nat) : Prop :=
  (Text.lineAt? n t).isSome

instance (t : Text) (n : Nat) : Decidable (HasLine t n) :=
  inferInstanceAs (Decidable (_ = true))

/-- **One place.** A position on a line that exists cuts a plain text once, counted in characters or
in bytes, and not between `CR` and `LF`. -/
lemma exists_cut {p : Position} (h : PlainBreaks t) (hline : HasLine t p.line) :
    ∃ x y, t = x ++ y ∧ index t p = x.length ∧ positionToByte p t = byteLength x ∧
      x.getLast? ≠ some '\r' := by
  rw [HasLine, Text.lineAt?, Option.isSome_map] at hline
  obtain ⟨⟨offset, rest⟩, hstart⟩ := Option.isSome_iff_exists.mp hline
  obtain ⟨front, hlines, hlength, htext, hoffset, hlast⟩ := breakLines_of_lineStart? h hstart
  have hrest : PlainBreaks rest := (htext ▸ h).right
  obtain ⟨line, lines, x, y, hfirst, rfl, hindex, hbyte, hcr⟩ := exists_column_cut hrest p.character
  refine ⟨front.flatten ++ x, y, ?_, ?_, ?_, ?_⟩
  · rw [List.append_assoc, ← htext]
  · have hmin : min p.line ((front ++ line :: lines).length - 1) = front.length := by
      rw [List.length_append, List.length_cons, hlength]
      omega
    rw [index, hlines, hfirst, hmin, List.take_left, List.length_append, ← hindex]
    simp
  · rw [positionToByte, hstart]
    show offset + _ = _
    rw [hbyte, hoffset, Text.byteLength_append]
  · rw [List.getLast?_append, hlast]
    cases hx : x.getLast? with
    | none => split_ifs <;> simp
    | some c =>
      rw [Option.some_or, ne_eq, Option.some.injEq]
      rintro rfl
      exact hcr (List.mem_of_getLast? hx)

/-- Of two cuts of a text the later one, counted in characters or in bytes. -/
lemma exists_later_cut {x' y' : Text} (h : x ++ y = x' ++ y') (hx : x.getLast? ≠ some '\r')
    (hx' : x'.getLast? ≠ some '\r') :
    ∃ z w, x ++ y = z ++ w ∧ max x.length x'.length = z.length ∧
      max (byteLength x) (byteLength x') = byteLength z ∧ z.getLast? ≠ some '\r' := by
  rcases Nat.le_total x.length x'.length with hle | hle
  · have hbyte := Text.byteLength_le_of_length_le h hle
    exact ⟨x', y', h, Nat.max_eq_right hle, Nat.max_eq_right hbyte, hx'⟩
  · have hbyte := Text.byteLength_le_of_length_le h.symm hle
    exact ⟨x, y, rfl, Nat.max_eq_left hle, Nat.max_eq_left hbyte, hx⟩

/-! ### Changes -/

/-- A change of a range whose two lines exist, to a text with plain line ends. -/
def Fits (t : Text) (change : Change) : Prop :=
  PlainBreaks change.text ∧ ∃ r ∈ change.range, HasLine t r.start.line ∧ HasLine t r.stop.line

instance (t : Text) (change : Change) : Decidable (Fits t change) :=
  inferInstanceAs (Decidable (_ ∧ _))

/-- The new text is the old one with the bytes from the start of a range up to its end replaced. A
range that ends before it starts is empty. -/
def IsSplice (old new : Text) (r : Range) (inserted : Text) : Prop :=
  ∃ x y z w, splitAtByte? (positionToByte r.start old) old = some (x, y) ∧
    splitAtByte? (max (positionToByte r.start old) (positionToByte r.stop old)) old = some (z, w) ∧
    new = x ++ inserted ++ w

/-- A change puts its text between two cuts of the old one. -/
lemma text_apply {doc : Document} {change : Change} {r : Range} {z w : Text}
    (hr : change.range = some r)
    (htext : doc.text = x ++ y) (hstart : index doc.text r.start = x.length)
    (hlater : doc.text = z ++ w)
    (hstop : max (index doc.text r.start) (index doc.text r.stop) = z.length) :
    (doc.apply change).text = x ++ change.text ++ w := by
  have htake : doc.text.take x.length = x := by rw [htext, List.take_left]
  have hdrop : doc.text.drop z.length = w := by rw [hlater, List.drop_left]
  rw [hstart] at hstop
  simp only [apply, hr, splice, hstart, hstop, htake, hdrop]

/-- **A step**: one change of a range is a splice, and keeps the line ends plain. -/
lemma apply_range {doc : Document} {change : Change} (h : PlainBreaks doc.text)
    (hfits : Fits doc.text change) :
    (∃ r ∈ change.range, IsSplice doc.text (doc.apply change).text r change.text) ∧
      PlainBreaks (doc.apply change).text ∧ (doc.apply change).revision = doc.revision + 1 := by
  obtain ⟨hplain, r, hr, hstart, hstop⟩ := hfits
  obtain ⟨x, y, htext, hindex, hbyte, hcr⟩ := exists_cut h hstart
  obtain ⟨x', y', htext', hindex', hbyte', hcr'⟩ := exists_cut h hstop
  obtain ⟨z, w, hlater, hmax, hmaxByte, hcrz⟩ := exists_later_cut (htext.symm.trans htext') hcr hcr'
  rw [← htext] at hlater
  have hnew : (doc.apply change).text = x ++ change.text ++ w :=
    text_apply hr htext hindex hlater (by rw [hindex, hindex', hmax])
  refine ⟨⟨r, hr, x, y, z, w, ?_, ?_, hnew⟩, ?_, rfl⟩
  · exact Text.splitAtByte?_eq_some_iff.mpr ⟨htext, hbyte⟩
  · rw [hbyte, hbyte', hmaxByte]
    exact Text.splitAtByte?_eq_some_iff.mpr ⟨hlater, rfl⟩
  · rw [hnew]
    exact (((htext ▸ h).left hcr).append hplain).append (hlater ▸ h).right

/-! ### Runs -/

/-- The document after several changes. -/
def applyAll (doc : Document) (changes : List Change) : Document :=
  changes.foldl apply doc

/-- Every change of a run fits the text that the document has then. -/
def Admits (doc : Document) : List Change → Prop
  | [] => True
  | change :: changes => Fits doc.text change ∧ (doc.apply change).Admits changes

instance decidableAdmits (doc : Document) : (changes : List Change) → Decidable (doc.Admits changes)
  | [] => inferInstanceAs (Decidable True)
  | change :: changes =>
    have := decidableAdmits (doc.apply change) changes
    inferInstanceAs (Decidable (Fits doc.text change ∧ (doc.apply change).Admits changes))

/-- **A run**: line ends stay plain, each change counts once, and the next change fits. -/
lemma applyAll_plain {doc : Document} {before after : List Change} {change : Change}
    (h : PlainBreaks doc.text) (hchanges : doc.Admits (before ++ change :: after)) :
    PlainBreaks (doc.applyAll before).text ∧
      (doc.applyAll before).revision = doc.revision + before.length ∧
      Fits (doc.applyAll before).text change := by
  induction before generalizing doc with
  | nil => exact ⟨h, rfl, hchanges.1⟩
  | cons first before ih =>
    obtain ⟨-, hplain, hrevision⟩ := apply_range h hchanges.1
    obtain ⟨hplain, hlength, hfits⟩ := ih hplain hchanges.2
    refine ⟨hplain, ?_, hfits⟩
    rw [List.length_cons]
    exact hlength.trans (by omega)

/-- **Incremental edits are splices.** Take a text in which `LF` and `CRLF` are the only line ends,
and any run of changes of ranges, each to such a text and on lines that exist at that moment. After
each change the text is the one before it with the bytes from the start of the range up to its end
replaced, both found by line feeds; the only line ends are still `LF` and `CRLF`; and the changes
made so far are counted. -/
theorem edits_eq_splices (doc : Document) (changes : List Change) (hplain : PlainBreaks doc.text)
    (hchanges : doc.Admits changes) (before after : List Change) (change : Change)
    (hsplit : changes = before ++ change :: after) :
    let old := doc.applyAll before
    let new := doc.applyAll (before ++ [change])
    (∃ r ∈ change.range, IsSplice old.text new.text r change.text) ∧ PlainBreaks new.text ∧
      new.revision = doc.revision + (before.length + 1) := by
  intro old new
  obtain ⟨hold, hrevision, hfits⟩ := applyAll_plain hplain (hsplit ▸ hchanges)
  have hnew : new = old.apply change := List.foldl_append
  obtain ⟨hsplice, hplain, hcount⟩ := apply_range hold hfits
  rw [hnew]
  exact ⟨hsplice, hplain, by rw [hcount, hrevision]; omega⟩

/-- A text with both line ends and a character of two units. -/
def faceText : Text :=
  "a😀b\r\nc\n".toList

/-- A change from inside a surrogate pair to past the end of a line, and one that ends before it
starts. -/
def faceChanges : List Change :=
  [⟨some ⟨⟨0, 2⟩, ⟨1, 9⟩⟩, "x\r\ny".toList⟩, ⟨some ⟨⟨1, 7⟩, ⟨0, 1⟩⟩, "z".toList⟩]

/-- The second of these changes inserts at the end of its line. -/
theorem edits_eq_splices_face :
    (Document.mk faceText none 0).Admits faceChanges ∧
      IsSplice "a😀x\r\ny\n".toList "a😀x\r\nyz\n".toList ⟨⟨1, 7⟩, ⟨0, 1⟩⟩ "z".toList ∧
      ((Document.mk faceText none 0).applyAll faceChanges).revision = 2 := by
  have hadmits : (Document.mk faceText none 0).Admits faceChanges := by decide +kernel
  obtain ⟨⟨r, hr, hsplice⟩, -, hrevision⟩ := edits_eq_splices ⟨faceText, none, 0⟩ faceChanges
    (by decide +kernel) hadmits (faceChanges.take 1) [] (faceChanges.get ⟨1, by decide⟩) rfl
  obtain rfl := Option.some.inj hr
  have hold : ((Document.mk faceText none 0).applyAll (faceChanges.take 1)).text =
      "a😀x\r\ny\n".toList := by decide +kernel
  have hnew : ((Document.mk faceText none 0).applyAll faceChanges).text =
      "a😀x\r\nyz\n".toList := by decide +kernel
  exact ⟨hadmits, hnew ▸ hold ▸ hsplice, hrevision⟩

end Document

end AutoItServer
