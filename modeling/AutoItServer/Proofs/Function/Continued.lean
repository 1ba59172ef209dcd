import AutoItServer.Proofs.Function.Written
import AutoItServer.Signature
import Mathlib.Data.List.Forall2

/-!
Parameter lists on several lines.

A list that goes on in the next line is read as the same list on one line. The state of the search
between two of its lines is said by what has been read: the chunks so far, and what still stands
behind them.

* `FunctionDef.FurtherLine`: a line of a list behind its first line, and `severalLines`: the whole
  definition.
* `FunctionDef.IsChunks`: chunks that make up a list.
* `Reader.Awaits`: the chunks so far have been read; `next_further` (**one line**) is what a further
  line adds to them, and `find_further` (**all lines**) what is found in the end.
* `FunctionDef.continuation_on_one_line`: a definition on several lines is the definition on one
  line.
-/

namespace AutoItServer

namespace FunctionDef

open AutoItServer.Source
  (Outside Balanced Encloses depthStep continues code stripComment stripComment_outside
  outside_of_plain encloses_of_plain isQuote_iff)

variable {name done t chunk indent trail gap s : Text} {depth : Nat}

/-! ### Definitions on several lines -/

/-- What marks a line as continued. -/
def continuationMark : Text := [' ', '_']

/-- What may stand between a continuation mark and the end of the line: blanks, and a comment. -/
def IsTrail (trail : Text) : Prop :=
  ∃ gap note, trail = gap ++ note ∧ (∀ c ∈ gap, isBlank c) ∧ ∀ c ∈ note.head?, c = ';'

/-- A line of a list behind its first line: what stands behind the mark on the line before, the
indentation, and a chunk of the list. -/
structure FurtherLine where
  trail : Text
  indent : Text
  chunk : Text
  isTrail : IsTrail trail
  isBlank_indent : ∀ c ∈ indent, isBlank c
  lf_not_mem : '\n' ∉ trail ++ indent

/-- The text of further lines, from the mark of the line before them on. -/
def furtherText (more : List FurtherLine) : Text :=
  more.flatMap fun m => continuationMark ++ (m.trail ++ '\n' :: (m.indent ++ m.chunk))

/-- A definition with its parameter list on several lines. -/
def severalLines (name first : Text) (more : List FurtherLine) : Text :=
  opening name ++ (first ++ (furtherText more ++ [')']))

/-- Chunks that make up a parameter list: none is empty or has blanks at its ends or a line feed,
their strings are complete, and outside strings there is no comment and the parentheses are balanced
over all of them. -/
structure IsChunks (chunks : List Text) : Prop where
  ne_nil : ∀ t ∈ chunks, t ≠ []
  trimmed : ∀ t ∈ chunks, Text.trim t = t
  line : ∀ t ∈ chunks, '\n' ∉ t
  outside : ∃ outs, List.Forall₂ Outside chunks outs ∧ ';' ∉ Text.join [' '] outs ∧
    Balanced '(' ')' (Text.join [' '] outs)

/-! ### One line -/

/-- The beginning of a trail is one. -/
lemma IsTrail.of_prefix {trail' : Text} (h : IsTrail trail) (hle : trail' <+: trail) :
    IsTrail trail' := by
  obtain ⟨gap, note, rfl, hgap, hnote⟩ := h
  rcases Source.prefix_append_cases hle with hle | ⟨note', rfl, hnext⟩
  · exact ⟨trail', [], (List.append_nil _).symm, fun c hc => hgap c (hle.subset hc), nofun⟩
  · refine ⟨gap, note', rfl, hgap, fun c hc => hnote c ?_⟩
    obtain ⟨cs, rfl⟩ := List.head?_eq_some_iff.mp hc
    obtain ⟨rest, hrest⟩ := hnext
    rw [← hrest]
    rfl

/-- Blanks hold no strings. -/
lemma outside_of_blank (h : ∀ c ∈ gap, isBlank c) : Outside gap gap := by
  refine outside_of_plain (List.any_eq_false.mpr fun c hc hquote => ?_)
  have hblank := h c hc
  rcases isQuote_iff.mp hquote with rfl | rfl <;> exact absurd hblank (by decide)

/-- A character that is no blank and no `_` is no part of a mark and the blanks behind it. -/
lemma not_mem_mark {d : Char} (hd : d ≠ '_' ∧ isBlank d = false) (hgap : ∀ c ∈ gap, isBlank c) :
    d ∉ continuationMark ++ gap := by
  intro hmem
  rcases List.mem_append.mp hmem with hmem | hmem
  · rcases List.mem_pair.mp hmem with rfl | rfl
    · exact absurd hd.2 (by decide)
    · exact hd.1 rfl
  · rw [hgap d hmem] at hd
    cases hd.2

lemma outside_mark (hgap : ∀ c ∈ gap, isBlank c) :
    Outside (continuationMark ++ gap) (continuationMark ++ gap) :=
  (outside_of_plain (by decide)).append (outside_of_blank hgap)

/-- Behind code that is complete, a mark with a trail continues the line. -/
lemma continues_mark (h : Outside t s) (hs : ';' ∉ s) (htrail : IsTrail trail) :
    continues (t ++ (continuationMark ++ trail)) = true := by
  obtain ⟨gap, note, rfl, hgap, hnote⟩ := htrail
  have hcomment : stripComment note = [] := by
    cases note with
    | nil => rfl
    | cons c note =>
      rw [hnote c rfl]
      rfl
  have hcode : code (t ++ (continuationMark ++ (gap ++ note))) = t ++ [' '] ++ ['_'] := by
    have hmark : t ++ (continuationMark ++ gap) = (t ++ [' '] ++ ['_']) ++ gap := by
      simp [continuationMark]
    rw [code, ← List.append_assoc continuationMark, stripComment_outside h hs,
      stripComment_outside (outside_mark hgap) (not_mem_mark (by decide) hgap), hcomment,
      List.append_nil, hmark, Text.trimEnd_append hgap, Text.trimEnd_concat (by decide)]
  rw [continues, hcode, List.reverse_append, List.reverse_append]
  rfl

/-- The mark is taken away before the next line is added. -/
lemma joinable_mark (hdone : Text.Solid done) (hgap : ∀ c ∈ gap, isBlank c) :
    joinable (done ++ (continuationMark ++ gap)) = done ++ [' '] := by
  have hmark : done ++ (continuationMark ++ gap) = (done ++ [' '] ++ ['_']) ++ gap := by
    simp [continuationMark]
  have hdone' : Text.trimEnd done = done := hdone.trimEnd_append []
  rw [joinable, hmark, Text.trimEnd_append hgap, Text.trimEnd_concat (by decide),
    Text.dropLastIf_concat, Text.trimEnd_append (List.all_eq_true.mp (by decide)), hdone']

/-- A piece before a mark is read with the mark, but without the comment behind it. -/
lemma exists_piece_mark (h : Outside t s) (hs : ';' ∉ s) (hopen : StaysOpen depth s)
    (htrail : IsTrail trail) :
    ∃ gap, (∀ c ∈ gap, isBlank c) ∧
      piece none depth (t ++ (continuationMark ++ trail)) =
        ⟨t ++ (continuationMark ++ gap), parensAfter depth s, false⟩ := by
  obtain ⟨gap, note, rfl, hgap, hnote⟩ := htrail
  refine ⟨gap, hgap, ?_⟩
  have hcomment : ∀ d, piece none d note = ⟨[], d, false⟩ := by
    intro d
    cases note with
    | nil => rfl
    | cons c note =>
      rw [hnote c rfl]
      rfl
  have hplain : ∀ c ∈ continuationMark ++ gap, (c == '(') = false ∧ (c == ')') = false := by
    intro c hc
    rw [beq_eq_false_iff_ne, beq_eq_false_iff_ne]
    constructor
    · rintro rfl
      exact not_mem_mark (by decide) hgap hc
    · rintro rfl
      exact not_mem_mark (by decide) hgap hc
  obtain ⟨hmark, hsame⟩ := encloses_of_plain hplain (parensAfter depth s)
  rw [← List.append_assoc continuationMark, piece_outside h hs hopen,
    piece_outside (outside_mark hgap) (not_mem_mark (by decide) hgap) hmark, hcomment]
  rw [Piece.behind, Piece.behind, List.append_nil, parensAfter, hsame]

/-- A line with a mark ends in its trail, or in a beginning of the trail. -/
lemma exists_lines_mark (ht : '\n' ∉ t) (htrail : '\n' ∉ trail) (i o : Nat) (rest : Text) :
    ∃ trail', trail' <+: trail ∧ ∃ o',
      Text.numberLines i o (Text.rawLines (t ++ (continuationMark ++ (trail ++ '\n' :: rest)))) =
        ⟨i, o, t ++ (continuationMark ++ trail')⟩ :: Text.numberLines (i + 1) o'
          (Text.rawLines rest) := by
  have hbody : '\n' ∉ (t ++ [' ']) ++ '_' :: trail := by simp [ht, htrail]
  have htext : t ++ (continuationMark ++ (trail ++ '\n' :: rest)) =
      ((t ++ [' ']) ++ '_' :: trail) ++ '\n' :: rest := by simp [continuationMark]
  obtain ⟨trail', hdrop⟩ : ∃ r, Text.dropLastIf '\r' ('_' :: trail) = '_' :: r :=
    Text.exists_dropLastIf_append (by decide) [] trail
  have hle : '_' :: trail' <+: '_' :: trail := by
    rw [← hdrop]
    rcases Text.dropLastIf_spec '\r' ('_' :: trail) with h | h
    · exact ⟨['\r'], h.symm⟩
    · rw [h]
  refine ⟨trail', (List.cons_prefix_cons.mp hle).2,
    o + Text.byteLength (((t ++ [' ']) ++ '_' :: trail) ++ ['\n']), ?_⟩
  rw [htext, Text.rawLines_lf hbody, Text.numberLines, Text.dropTerminator, Text.dropLastIf_concat,
    Text.dropLastIf_append_cons, hdrop, List.append_assoc]
  rfl

/-! ### Line by line -/

/-- The search has read the text `done` of a list, and then a continuation mark, with `depth`
parentheses open. -/
def Reader.Awaits (r : Reader) (name done : Text) (depth : Nat) : Prop :=
  ∃ gap, (∀ c ∈ gap, isBlank c) ∧ r = .reading ⟨name, done ++ (continuationMark ++ gap), 0, 0⟩ depth

/-- Chunks that complete a list in which `depth` parentheses are open. -/
structure Completes (depth : Nat) (chunks : List Text) : Prop where
  solid : ∀ t ∈ chunks, Text.Solid t
  line : ∀ t ∈ chunks, '\n' ∉ t
  outside : ∃ outs, List.Forall₂ Outside chunks outs ∧ ';' ∉ Text.join [' '] outs ∧
    StaysOpen depth (Text.join [' '] outs) ∧ parensAfter depth (Text.join [' '] outs) = 0

lemma IsChunks.completes {chunks : List Text} (h : IsChunks chunks) : Completes 0 chunks := by
  obtain ⟨outs, houts, hcomment, hbalanced⟩ := h.outside
  exact ⟨fun t ht => Text.solid_of_trim_eq (h.ne_nil t ht) (h.trimmed t ht), h.line, outs,
    houts, hcomment, hbalanced.encloses, hbalanced.foldl_depthStep (by decide)⟩

/-- The last chunk closes what is open. -/
lemma Completes.last (h : Completes depth [t]) :
    ∃ s, Outside t s ∧ ';' ∉ s ∧ StaysOpen depth s ∧ parensAfter depth s = 0 := by
  obtain ⟨outs, houts, hrest⟩ := h.outside
  obtain ⟨s, outs, hs, hnil, rfl⟩ := List.forall₂_cons_left_iff.mp houts
  obtain rfl := List.forall₂_nil_left_iff.mp hnil
  exact ⟨s, hs, hrest⟩

/-- The chunks behind the first one complete what it leaves open. -/
lemma Completes.tail {u : Text} {chunks : List Text} (h : Completes depth (t :: u :: chunks)) :
    ∃ s, Outside t s ∧ ';' ∉ s ∧ StaysOpen depth s ∧
      Completes (parensAfter depth s) (u :: chunks) := by
  obtain ⟨outs, houts, hcomment, hopen, hclosed⟩ := h.outside
  obtain ⟨s, outs, hs, hmore, rfl⟩ := List.forall₂_cons_left_iff.mp houts
  obtain ⟨s', outs', hs', hmore', rfl⟩ := List.forall₂_cons_left_iff.mp hmore
  have hjoin : Text.join [' '] (s :: s' :: outs') = (s ++ [' ']) ++ Text.join [' '] (s' :: outs') :=
    rfl
  have hblank : parensAfter depth (s ++ [' ']) = parensAfter depth s := by
    rw [parensAfter, List.foldl_append]
    rfl
  rw [hjoin] at hcomment hopen hclosed
  rw [List.mem_append, not_or, List.mem_append, not_or] at hcomment
  have hrest := Encloses.right parens_apart hopen
  rw [parensAfter, List.foldl_append] at hclosed
  refine ⟨s, hs, hcomment.1.1, hopen.left.left, ?_⟩
  rw [← hblank]
  exact ⟨(List.forall_mem_cons.mp h.solid).2, (List.forall_mem_cons.mp h.line).2, s' :: outs',
    hmore, hcomment.2, hrest, hclosed⟩

/-- **One line** that is continued adds its chunk to what has been read. -/
lemma Reader.Awaits.next {r : Reader} {i o : Nat} (hr : r.Awaits name done depth)
    (hdone : Text.Solid done)
    (hindent : ∀ c ∈ indent, isBlank c) (ht : Text.Solid t) (hs : Outside t s) (hcomment : ';' ∉ s)
    (hopen : StaysOpen depth s) (htrail : IsTrail trail) (nesting : Nat) :
    ∃ r', r'.Awaits name (done ++ ' ' :: t) (parensAfter depth s) ∧
      ∀ ls, State.find ⟨nesting, r⟩ (⟨i, o, indent ++ (t ++ (continuationMark ++ trail))⟩ :: ls) =
        State.find ⟨nesting, r'⟩ ls := by
  obtain ⟨gap, hgap, rfl⟩ := hr
  obtain ⟨gap', hgap', hpiece⟩ := exists_piece_mark hs hcomment hopen htrail
  have hcontinues : continues (indent ++ (t ++ (continuationMark ++ trail))) = true := by
    have hplain : ';' ∉ indent ++ s := by
      rw [List.mem_append, not_or]
      exact ⟨fun hmem => absurd (hindent _ hmem) (by decide), hcomment⟩
    rw [← List.append_assoc]
    exact continues_mark ((outside_of_blank hindent).append hs) hplain htrail
  have htext : Text.trimStart (indent ++ (t ++ (continuationMark ++ trail))) =
      t ++ (continuationMark ++ trail) := by
    rw [Text.trimStart_append hindent, ht.trimStart_append]
  have hparams : done ++ [' '] ++ (t ++ (continuationMark ++ gap')) =
      done ++ ' ' :: t ++ (continuationMark ++ gap') := by simp
  have hread : State.read ⟨nesting, .reading ⟨name, done ++ (continuationMark ++ gap), 0, 0⟩ depth⟩
      ⟨i, o, indent ++ (t ++ (continuationMark ++ trail))⟩ =
        some (⟨name, done ++ ' ' :: t ++ (continuationMark ++ gap'), 0, 0⟩,
          .reading ⟨name, done ++ ' ' :: t ++ (continuationMark ++ gap'), 0, 0⟩
            (parensAfter depth s)) := by
    simp only [State.read, htext, hpiece, joinable_mark hdone hgap, hparams, afterPiece, hcontinues,
      Bool.not_false, Bool.true_and, if_true]
  refine ⟨_, ⟨gap', hgap', rfl⟩, fun ls => ?_⟩
  rw [State.find_cons, State.out, State.next, hread]
  rfl

/-- **The last line** completes the list. -/
lemma Reader.Awaits.find_last {r : Reader} {i o : Nat} (hr : r.Awaits name done depth)
    (hdone : Text.Solid done)
    (hindent : ∀ c ∈ indent, isBlank c) (ht : Text.Solid t) (hs : Outside t s) (hcomment : ';' ∉ s)
    (hopen : StaysOpen depth s) (hclosed : parensAfter depth s = 0) (nesting : Nat) :
    State.find ⟨nesting, r⟩ [⟨i, o, indent ++ (t ++ [')'])⟩] =
      [⟨name, Text.trim (done ++ ' ' :: t), 0, 0⟩] := by
  obtain ⟨gap, hgap, rfl⟩ := hr
  have htext : Text.trimStart (indent ++ (t ++ [')'])) = t ++ [')'] := by
    rw [Text.trimStart_append hindent, ht.trimStart_append]
  have hparams : done ++ [' '] ++ t = done ++ ' ' :: t := by simp
  have hread : State.read ⟨nesting, .reading ⟨name, done ++ (continuationMark ++ gap), 0, 0⟩ depth⟩
      ⟨i, o, indent ++ (t ++ [')'])⟩ = some (⟨name, done ++ ' ' :: t, 0, 0⟩, .looking) := by
    simp only [State.read, htext, piece_closed hs hcomment hopen hclosed,
      joinable_mark hdone hgap, hparams,
      afterPiece, Bool.not_true, Bool.false_and, Bool.false_eq_true, if_false]
  rw [State.find_cons, State.out, State.next, hread]
  rfl

/-- **All lines**: what has been read is completed by the chunks of the further lines. -/
lemma find_further {r : Reader} {more : List FurtherLine} {i o : Nat}
    (hr : r.Awaits name done depth)
    (hdone : Text.Solid done) (hindent : ∀ c ∈ indent, isBlank c) (hline : '\n' ∉ indent)
    (h : Completes depth (t :: more.map FurtherLine.chunk)) (nesting : Nat) :
    State.find ⟨nesting, r⟩
        (Text.numberLines i o (Text.rawLines (indent ++ (t ++ (furtherText more ++ [')']))))) =
      [⟨name, Text.trim (done ++ ' ' :: Text.join [' '] (t :: more.map FurtherLine.chunk)),
        0, 0⟩] := by
  have ht := h.solid t List.mem_cons_self
  have hlf := h.line t List.mem_cons_self
  -- each line adds its chunk to what has been read, and leaves its parentheses to the next
  induction more generalizing r t indent done depth i o with
  | nil =>
    obtain ⟨s, hs, hcomment, hopen, hclosed⟩ := h.last
    have hlast : '\n' ∉ indent ++ (t ++ [')']) := by simp [hline, hlf]
    have hdrop : Text.dropTerminator (indent ++ (t ++ [')'])) = indent ++ (t ++ [')']) := by
      rw [← List.append_assoc]
      exact Text.dropTerminator_concat (by decide) (by decide) _
    rw [furtherText, List.flatMap_nil, List.nil_append, Text.rawLines_of_lf_not_mem hlast (by simp),
      Text.numberLines, hdrop]
    exact hr.find_last hdone hindent ht hs hcomment hopen hclosed nesting
  | cons m more ih =>
    obtain ⟨s, hs, hcomment, hopen, hmore⟩ := h.tail
    obtain ⟨htrail, hindent'⟩ := not_or.mp (mt List.mem_append.mpr m.lf_not_mem)
    have htext : indent ++ (t ++ (furtherText (m :: more) ++ [')'])) =
        (indent ++ t) ++ (continuationMark ++
        (m.trail ++ '\n' :: (m.indent ++ (m.chunk ++ (furtherText more ++ [')']))))) := by
      simp [furtherText]
    obtain ⟨trail', hle, o', hlines⟩ :=
      exists_lines_mark (t := indent ++ t) (by simp [hline, hlf]) htrail i o
      (m.indent ++ (m.chunk ++ (furtherText more ++ [')'])))
    obtain ⟨r', hr', hfind⟩ := hr.next (i := i) (o := o) hdone hindent ht hs hcomment hopen
      (m.isTrail.of_prefix hle) nesting
    have hdone' : Text.Solid (done ++ ' ' :: t) := hdone.append ht [' ']
    rw [htext, hlines, List.append_assoc, hfind,
      ih hr' hdone' m.isBlank_indent hindent' hmore (hmore.solid _ List.mem_cons_self)
        (hmore.line _ List.mem_cons_self)]
    rw [List.map_cons, Text.join_cons_cons, List.append_assoc]
    rfl

/-! ### The whole definition -/

/-- The text of complete chunks is complete. -/
lemma outside_join {chunks outs : List Text} (h : List.Forall₂ Outside chunks outs) :
    Outside (Text.join [' '] chunks) (Text.join [' '] outs) := by
  induction h with
  | nil => exact .nil
  | @cons t s chunks outs hs hmore ih =>
    cases hmore with
    | nil => exact hs
    | cons _ _ => exact (hs.append (outside_of_plain (by decide))).append ih

/-- A definition on one line is found once, with all chunks of its list. -/
lemma findAll_oneLine {chunks : List Text} (hname : IsName name) (h : IsChunks chunks)
    (hne : chunks ≠ []) :
    findAll (oneLine name (Text.join [' '] chunks)) = [⟨name, Text.join [' '] chunks, 0, 0⟩] := by
  obtain ⟨outs, houts, hcomment, hbalanced⟩ := h.outside
  have hline : '\n' ∉ Text.join [' '] chunks := by
    intro hlf
    rcases Text.exists_mem_of_mem_join hlf with hlf | ⟨t, ht, hlf⟩
    · exact absurd hlf (by decide)
    · exact h.line t ht hlf
  have htrim : Text.trim (Text.join [' '] chunks) = Text.join [' '] chunks := by
    obtain ⟨t, chunks, rfl⟩ := List.exists_cons_of_ne_nil hne
    obtain ⟨ht, hmore⟩ := List.forall_mem_cons.mp h.completes.solid
    exact (Text.solid_join [' '] ht hmore).trim_eq
  obtain ⟨later, hfound, hlast⟩ :=
    exists_findAll_oneLine hname hline (outside_join houts) hcomment hbalanced []
  rwa [hlast rfl, htrim, List.append_nil] at hfound

/-- A definition on several lines is found once, with all chunks of its list. -/
lemma findAll_severalLines {first : Text} {more : List FurtherLine} (hname : IsName name)
    (h : IsChunks (first :: more.map FurtherLine.chunk)) :
    findAll (severalLines name first more) =
      [⟨name, Text.join [' '] (first :: more.map FurtherLine.chunk), 0, 0⟩] := by
  cases more with
  | nil =>
    have htext : severalLines name first [] = oneLine name (Text.join [' '] [first]) := rfl
    rw [htext]
    exact findAll_oneLine hname h (List.cons_ne_nil _ _)
  | cons m more =>
    have hcomplete := h.completes
    obtain ⟨hfirst, hsolid⟩ := List.forall_mem_cons.mp hcomplete.solid
    obtain ⟨s, hs, hcomment, hopen, hmore⟩ := hcomplete.tail
    obtain ⟨htrail, hindent⟩ := not_or.mp (mt List.mem_append.mpr m.lf_not_mem)
    have hlf : '\n' ∉ opening name ++ first := by
      rw [List.mem_append, not_or]
      exact ⟨not_mem_opening hname (by decide) (by decide), h.line first List.mem_cons_self⟩
    have hplain : ';' ∉ opening name ++ s := by
      rw [List.mem_append, not_or]
      exact ⟨not_mem_opening hname (by decide) (by decide), hcomment⟩
    have htext : severalLines name first (m :: more) =
        (opening name ++ first) ++ (continuationMark ++
        (m.trail ++ '\n' :: (m.indent ++ (m.chunk ++ (furtherText more ++ [')']))))) := by
      simp [severalLines, furtherText]
    obtain ⟨trail', hle, o', hlines⟩ := exists_lines_mark hlf htrail 0 0
      (m.indent ++ (m.chunk ++ (furtherText more ++ [')'])))
    have htrail' := m.isTrail.of_prefix hle
    obtain ⟨gap, hgap, hpiece⟩ := exists_piece_mark hs hcomment hopen htrail'
    have hcontinues : continues (opening name ++ (first ++ (continuationMark ++ trail'))) =
        true := by
      rw [← List.append_assoc]
      exact continues_mark ((outside_opening hname).append hs) hplain htrail'
    have hread : State.start.read ⟨0, 0, opening name ++ (first ++ (continuationMark ++ trail'))⟩ =
        some (⟨name, first ++ (continuationMark ++ gap), 0, 0⟩,
          .reading ⟨name, first ++ (continuationMark ++ gap), 0, 0⟩ (parensAfter 0 s)) := by
      rw [State.read_opening hname, hpiece]
      simp only [afterPiece, hcontinues, Bool.not_false, Bool.true_and, if_true]
    have hjoin : Text.trim (first ++ ' ' :: Text.join [' ']
          (m.chunk :: more.map FurtherLine.chunk)) =
        Text.join [' '] (first :: (m :: more).map FurtherLine.chunk) := by
      have hparams := (Text.solid_join [' '] hfirst hsolid).trim_eq
      rwa [List.map_cons, Text.join_cons_cons] at hparams ⊢
    show State.start.find (Text.lines _) = _
    rw [htext, Text.lines, hlines, List.append_assoc, State.find_cons, State.out, State.next, hread]
    dsimp only
    rw [find_further ⟨gap, hgap, rfl⟩ hfirst m.isBlank_indent hindent hmore, hjoin, List.nil_append]

/-- No header stands above the first line, so that a single definition there gives the signatures of
the text. -/
lemma ofText_eq_of_findAll {t u : Text} {d : FunctionDef} (ht : findAll t = [d])
    (hu : findAll u = [d])
    (hline : d.line = 0) (file : Text) : Signature.ofText t file = Signature.ofText u file := by
  have hheader : ∀ lines, Signature.headerOf? lines d = Signature.headerOf? [] d := by
    intro lines
    simp [Signature.headerOf?, hline, Header.above?, Header.blockAbove]
  simp only [Signature.ofText, Signature.ofDef, ht, hu, List.map_cons, List.map_nil,
    hheader ((Text.lines t).map Line.text), hheader ((Text.lines u).map Line.text)]

/-- **On one line**: a definition whose parameter list goes on over several lines is found once, as
the same definition on one line, and has the same signature. -/
theorem continuation_on_one_line {first : Text} {more : List FurtherLine} (hname : IsName name)
    (h : IsChunks (first :: more.map FurtherLine.chunk)) (file : Text) :
    let params := Text.join [' '] (first :: more.map FurtherLine.chunk)
    findAll (severalLines name first more) = [⟨name, params, 0, 0⟩] ∧
      findAll (oneLine name params) = [⟨name, params, 0, 0⟩] ∧
      Signature.ofText (severalLines name first more) file =
        Signature.ofText (oneLine name params) file := by
  have hseveral := findAll_severalLines hname h
  have hone := findAll_oneLine hname h (List.cons_ne_nil _ _)
  exact ⟨hseveral, hone, ofText_eq_of_findAll hseveral hone rfl file⟩

/-- A line behind a comment with a quote in it, which ends in a `_` of its own, and a line behind a
carriage return, which looks like the start of a block. -/
def trickyLines : List FurtherLine :=
  [{ trail := "\t; say \"( _".toList
     indent := "\t ".toList
     chunk := "$b_ = Foo(1, _".toList
     isTrail := ⟨"\t".toList, "; say \"( _".toList, rfl, List.all_eq_true.mp (by decide), by
      rintro c ⟨⟩
      rfl⟩
     isBlank_indent := List.all_eq_true.mp (by decide)
     lf_not_mem := by decide },
   { trail := "\r".toList
     indent := []
     chunk := "#cs )".toList
     isTrail := ⟨"\r".toList, [], rfl, List.all_eq_true.mp (by decide), nofun⟩
     isBlank_indent := nofun
     lf_not_mem := by decide }]

/-- The definition with these lines is the definition on one line. -/
theorem continuation_on_one_line_tricky :
    IsChunks ("$a = \"(; _\",".toList :: trickyLines.map FurtherLine.chunk) ∧
      severalLines "Fn_".toList "$a = \"(; _\",".toList trickyLines =
        "Func Fn_($a = \"(; _\", _\t; say \"( _\n\t $b_ = Foo(1, _ _\r\n#cs ))".toList ∧
      findAll (severalLines "Fn_".toList "$a = \"(; _\",".toList trickyLines) =
        [⟨"Fn_".toList, "$a = \"(; _\", $b_ = Foo(1, _ #cs )".toList, 0, 0⟩] ∧
      Signature.ofText (severalLines "Fn_".toList "$a = \"(; _\",".toList trickyLines) [] =
        Signature.ofText "Func Fn_($a = \"(; _\", $b_ = Foo(1, _ #cs ))".toList [] := by
  have hchunks : IsChunks ("$a = \"(; _\",".toList :: trickyLines.map FurtherLine.chunk) := by
    refine ⟨by decide, by decide +kernel, by decide,
      ["$a = ,".toList, "$b_ = Foo(1, _".toList, "#cs )".toList], ?_, by decide, by decide +kernel⟩
    refine .cons ?_ (.cons (outside_of_plain (by decide))
      (.cons (outside_of_plain (by decide)) .nil))
    show Outside ("$a = ".toList ++ ('"' :: "(; _".toList ++ '"' :: ",".toList))
      ("$a = ".toList ++ ",".toList)
    exact (outside_of_plain (by decide)).append
      (.literal rfl (by decide) (outside_of_plain (by decide)))
  have hname : IsName "Fn_".toList := ⟨by decide, List.all_eq_true.mp (by decide +kernel)⟩
  obtain ⟨hfound, -, hsignature⟩ := continuation_on_one_line hname hchunks []
  exact ⟨hchunks, by decide, hfound, hsignature⟩

end FunctionDef

end AutoItServer
