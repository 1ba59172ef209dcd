import AutoItServer.Call.Context
import AutoItServer.Proofs.Text.Position
import Mathlib.Data.List.Forall2

/-!
The text before a cursor, with the lines that its line continues.

An editor shows one line more than a text has, if the text ends in a line feed: the empty line
behind it. The text before a cursor is put together from the lines of the text, where that line is
missing.

* `IsContinuedCode`: what is kept of a line that goes on.
* `RunBefore`: the lines before a line, divided where the run of continued lines starts that leads
  to it.
* `UpTo`: a line up to a byte column, or up to the character that the column stands in.
* `continuedPrefix_of_line`: the text before a cursor on a line of the text.
* `continuedPrefix_eq_iff` (**every line of the editor**): on the empty line behind the last line
  feed the lines that it continues are lost, and everywhere else they are there.
-/

namespace AutoItServer

namespace Call

open AutoItServer.Text (byteLength takeBytes lineAt? WholeLines)

variable {t line x : Text} {n column : Nat}

/-! ### Lines that go on -/

/-- What is kept of a line that goes on: its code without the comment, the blanks at its end and the
`_`. -/
def IsContinuedCode (line code : Text) : Prop :=
  ∃ gap, Source.stripComment line = code ++ '_' :: gap ∧ ∀ c ∈ gap, isBlank c

lemma isContinuedCode_of_continues (h : Source.continues line) :
    IsContinuedCode line (Source.continuedCode line) := by
  obtain ⟨gap, hgap, hblank⟩ := Text.exists_trimEnd (Source.stripComment line)
  refine ⟨gap, ?_, hblank⟩
  have hlast : (Source.code line).getLast? = some '_' := by
    rw [Source.continues] at h
    rw [← List.head?_reverse]
    split at h
    · cases h
    · rename_i c before hcode
      rw [Bool.and_eq_true, beq_iff_eq] at h
      rw [hcode, h.1]
      rfl
  obtain ⟨code, hcode⟩ := List.getLast?_eq_some_iff.mp hlast
  rw [Source.continuedCode, hcode, Text.dropLastIf_concat, hgap, ← Source.code, hcode,
    List.append_assoc]
  rfl

lemma IsContinuedCode.eq {code : Text} (h : IsContinuedCode line code) :
    code = Source.continuedCode line := by
  obtain ⟨gap, hcode, hblank⟩ := h
  have hend : Source.code line = code ++ ['_'] := by
    rw [Source.code, hcode, ← List.singleton_append, ← List.append_assoc,
      Text.trimEnd_append hblank, Text.trimEnd_concat (by decide)]
  rw [Source.continuedCode, hend, Text.dropLastIf_concat]

/-- The lines before line `n`: those above, and directly before it the longest run of lines that all
go on, with what is kept of each. -/
structure RunBefore (t : Text) (n : Nat) (above run codes : List Text) : Prop where
  length : (above ++ run).length = n
  lines : ∀ k < n, lineAt? k t = (above ++ run)[k]?
  continues : ∀ l ∈ run, Source.continues l
  longest : ∀ l, above.getLast? = some l → ¬ Source.continues l
  codes : List.Forall₂ IsContinuedCode run codes

/-- The lines of a text before one that an editor shows. -/
lemma getElem?_texts_of_lt {k : Nat} (h : k < t.count '\n') :
    ((Text.lines t).map Line.text)[k]? = lineAt? k t := by
  rw [Text.lineAt?_eq, if_neg (Nat.ne_of_lt h), Option.or_none]

lemma le_count_of_lineAt? (h : lineAt? n t = some line) : n ≤ t.count '\n' := by
  rw [← Text.isSome_lineStart?_iff, ← Option.isSome_map, ← lineAt?, h]
  rfl

lemma length_take_texts (h : lineAt? n t = some line) :
    (((Text.lines t).map Line.text).take n).length = n := by
  obtain ⟨whole, part, rfl, hwhole, hpart⟩ := Text.exists_wholeLines t
  have hn := le_count_of_lineAt? h
  have hlength := Text.length_rawLines hwhole hpart
  rw [List.length_take, List.length_map, Text.lines, Text.length_numberLines]
  omega

/-- A run and what stands above it are all lines before the line. -/
lemma RunBefore.append_eq {above run codes : List Text} (h : RunBefore t n above run codes)
    (hline : lineAt? n t = some line) : above ++ run = ((Text.lines t).map Line.text).take n := by
  refine List.ext_getElem? fun k => ?_
  by_cases hk : k < n
  · rw [List.getElem?_take_of_lt hk,
      getElem?_texts_of_lt (Nat.lt_of_lt_of_le hk (le_count_of_lineAt? hline)), h.lines k hk]
  · rw [List.getElem?_eq_none (by rw [h.length]; omega), List.getElem?_eq_none]
    rw [length_take_texts hline]
    omega

/-- The run is what is collected upwards from the line. -/
lemma RunBefore.run_eq {above run codes : List Text} (h : RunBefore t n above run codes)
    (hline : lineAt? n t = some line) :
    ((((Text.lines t).map Line.text).take n).reverse.takeWhile Source.continues).reverse = run := by
  have hstop : above.reverse.takeWhile Source.continues = [] := by
    cases hlast : above.reverse with
    | nil => rfl
    | cons l rest =>
      refine List.takeWhile_cons_of_neg (h.longest l ?_)
      rw [← List.head?_reverse, hlast]
      rfl
  rw [← h.append_eq hline, List.reverse_append,
    List.takeWhile_append_of_pos fun l hl => h.continues l (List.mem_reverse.mp hl), hstop,
    List.append_nil, List.reverse_reverse]

/-- **Every line has a run before it**, which may be empty. -/
lemma exists_runBefore (hline : lineAt? n t = some line) :
    ∃ above run codes, RunBefore t n above run codes := by
  let before := ((Text.lines t).map Line.text).take n
  let run := (before.reverse.takeWhile Source.continues).reverse
  let above := (before.reverse.dropWhile Source.continues).reverse
  have hbefore : above ++ run = before := by
    rw [← List.reverse_append, List.takeWhile_append_dropWhile, List.reverse_reverse]
  have hrun : ∀ l ∈ run, Source.continues l :=
    fun l hl => List.mem_takeWhile_imp (List.mem_reverse.mp hl)
  refine ⟨above, run, run.map Source.continuedCode, ?_, fun k hk => ?_, hrun, fun l hl => ?_, ?_⟩
  · rw [hbefore]
    exact length_take_texts hline
  · rw [hbefore, List.getElem?_take_of_lt hk,
      getElem?_texts_of_lt (Nat.lt_of_lt_of_le hk (le_count_of_lineAt? hline))]
  · have hnot := List.head?_dropWhile_not Source.continues before.reverse
    rw [List.getLast?_reverse] at hl
    rw [hl] at hnot
    rw [hnot]
    decide
  · rw [List.forall₂_map_right_iff, List.forall₂_same]
    exact fun l hl => isContinuedCode_of_continues (hrun l hl)

/-! ### Columns -/

/-- A line up to a byte column, or up to the character that the column stands in: its longest
beginning of no more bytes. -/
structure UpTo (column : Nat) (line x : Text) : Prop where
  begins : x <+: line
  fits : byteLength x ≤ column
  longest : ∀ z, z <+: line → byteLength z ≤ column → byteLength z ≤ byteLength x

lemma byteLength_takeBytes_le_column (column : Nat) (line : Text) :
    byteLength (takeBytes column line) ≤ column := by
  induction line generalizing column with
  | nil => exact Nat.zero_le _
  | cons c line ih =>
    rw [takeBytes]
    split_ifs with hc
    · have := ih (column - c.utf8Size)
      rw [Text.byteLength_cons]
      omega
    · exact Nat.zero_le _

lemma upTo_takeBytes (column : Nat) (line : Text) : UpTo column line (takeBytes column line) := by
  refine ⟨⟨_, Text.takeBytes_append_dropBytes column line⟩,
    byteLength_takeBytes_le_column column line, ?_⟩
  rintro z ⟨w, rfl⟩ hz
  obtain ⟨y, hy⟩ := Text.exists_takeBytes_eq_append hz (z ++ w)
  rw [hy, Text.takeBytes_byteLength, Text.byteLength_append]
  exact Nat.le_add_right _ _

lemma UpTo.eq (h : UpTo column line x) : x = takeBytes column line := by
  have hlongest := upTo_takeBytes column line
  have hlength := Nat.le_antisymm (hlongest.longest x h.begins h.fits)
    (h.longest _ hlongest.begins hlongest.fits)
  -- two beginnings of one line that are equally long
  rcases List.prefix_or_prefix_of_prefix h.begins hlongest.begins with ⟨y, hy⟩ | ⟨y, hy⟩
  all_goals
    rw [← hy, Text.byteLength_append] at hlength
    have hnil : y = [] := Text.byteLength_eq_zero_iff.mp (by omega)
    rw [← hy, hnil, List.append_nil]

/-! ### The text before a cursor -/

/-- What is kept of the lines of a run. -/
lemma flatMap_continuedCode {run codes : List Text} (h : List.Forall₂ IsContinuedCode run codes) :
    run.flatMap (fun l => Source.continuedCode l ++ [' ']) = codes.flatMap (· ++ [' ']) := by
  induction h with
  | nil => rfl
  | cons hcode _ ih => rw [List.flatMap_cons, List.flatMap_cons, ih, hcode.eq]

/-- On a line of the text, the run before it and the line up to the column. -/
lemma continuedPrefix_of_line {above run codes : List Text} (hline : lineAt? n t = some line)
    (hmem : ((Text.lines t).map Line.text)[n]? = some line) (hrun : RunBefore t n above run codes)
    (hx : UpTo column line x) : continuedPrefix t n column = codes.flatMap (· ++ [' ']) ++ x := by
  simp only [continuedPrefix, hmem]
  rw [hrun.run_eq hline, flatMap_continuedCode hrun.codes, hx.eq]

/-- Behind the last line feed there is no line of the text exactly if nothing stands there. -/
lemma getElem?_texts_eq_none_iff :
    ((Text.lines t).map Line.text)[t.count '\n']? = none ↔ WholeLines t := by
  obtain ⟨whole, part, rfl, hwhole, hpart⟩ := Text.exists_wholeLines t
  have hlength := Text.length_rawLines hwhole hpart
  rw [List.getElem?_eq_none_iff, List.length_map, Text.lines, Text.length_numberLines, hlength]
  split_ifs with hnil
  · rw [hnil, List.append_nil]
    exact iff_of_true (Nat.le_refl _) hwhole
  · refine iff_of_false (by omega) fun h => hnil (WholeLines.eq_nil h.right hpart)

/-- The empty line behind a last line feed, before which a run of lines goes on. -/
def LosesRun (t : Text) (n : Nat) (run : List Text) : Prop :=
  t.getLast? = some '\n' ∧ n = t.count '\n' ∧ run ≠ []

/-- **The empty line behind the last line feed** has nothing before the cursor. -/
lemma continuedPrefix_of_no_line (hmem : ((Text.lines t).map Line.text)[n]? = none) :
    continuedPrefix t n column = [] := by
  simp only [continuedPrefix, hmem]

/-- **Every line of the editor.** The text before a cursor is what is kept of the run of lines
before its line, with a space after each, and the line up to the column. This holds on every line
that an editor shows, unless it is the empty line behind a last line feed and the line before it
goes on. There the text is empty. -/
theorem continuedPrefix_eq_iff (hline : lineAt? n t = some line) (column : Nat) :
    (∃ above run codes, RunBefore t n above run codes) ∧ (∃ x, UpTo column line x) ∧
    ∀ above run codes x, RunBefore t n above run codes → UpTo column line x →
      (continuedPrefix t n column = codes.flatMap (· ++ [' ']) ++ x ↔ ¬ LosesRun t n run) ∧
      (LosesRun t n run → continuedPrefix t n column = []) := by
  refine ⟨exists_runBefore hline, ⟨_, upTo_takeBytes column line⟩,
    fun above run codes x hrun hx => ?_⟩
  have hshown := Text.lineAt?_eq n t
  rw [hline] at hshown
  cases hmem : ((Text.lines t).map Line.text)[n]? with
  | some l =>
    rw [hmem, Option.some_or, Option.some.injEq] at hshown
    have hkept : ¬ LosesRun t n run := by
      rintro ⟨hlast, rfl, -⟩
      rw [getElem?_texts_eq_none_iff.mpr fun c hc => (Option.some.inj (hlast.symm.trans hc)).symm]
        at hmem
      cases hmem
    exact ⟨iff_of_true (continuedPrefix_of_line hline (hshown ▸ hmem) hrun hx) hkept,
      fun h => absurd h hkept⟩
  | none =>
    rw [hmem, Option.none_or] at hshown
    split_ifs at hshown with hcount
    subst hcount
    obtain rfl := Option.some.inj hshown
    refine ⟨?_, fun _ => continuedPrefix_of_no_line hmem⟩
    rw [continuedPrefix_of_no_line hmem, List.prefix_nil.mp hx.begins, List.append_nil]
    by_cases hnil : run = []
    · have hcodes : codes = [] := List.forall₂_nil_left_iff.mp (hnil ▸ hrun.codes)
      exact iff_of_true (by rw [hcodes]; rfl) fun h => h.2.2 hnil
    · refine iff_of_false (fun h => ?_) (not_not_intro ⟨?_, rfl, hnil⟩)
      · -- the first line of the run leaves at least a space
        obtain ⟨l, run, rfl⟩ := List.exists_cons_of_ne_nil hnil
        obtain ⟨code, codes, -, -, rfl⟩ := List.forall₂_cons_left_iff.mp hrun.codes
        simp at h
      · have hwhole := getElem?_texts_eq_none_iff.mp hmem
        have hne : t ≠ [] := by
          rintro rfl
          have hlength := hrun.length
          rw [List.count_nil, List.length_eq_zero_iff, List.append_eq_nil_iff] at hlength
          exact hnil hlength.2
        rw [List.getLast?_eq_some_getLast hne, hwhole _ (List.getLast?_eq_some_getLast hne)]

/-- A call over three lines that ends in a line feed: a comment with a quote, a `CRLF`, and a second
line that goes on. -/
def openCallLines : Text :=
  "x\r\nFoo(\"é;\", _ ; it's\r\n\té, _\n".toList

/-- On the second line of the call the cursor stands inside a character, after a line with a
comment. -/
theorem continuedPrefix_open_call :
    lineAt? 2 openCallLines = some "\té, _".toList ∧
    continuedPrefix openCallLines 2 2 = "Foo(\"é;\",  \t".toList := by
  have hline : lineAt? 2 openCallLines = some "\té, _".toList := by decide +kernel
  obtain ⟨-, -, htext⟩ := continuedPrefix_eq_iff hline 2
  have hrun : RunBefore openCallLines 2 ["x".toList] ["Foo(\"é;\", _ ; it's".toList]
      ["Foo(\"é;\", ".toList] :=
    ⟨rfl, by decide +kernel, by decide +kernel, by decide +kernel,
      .cons ⟨[' '], by decide +kernel, List.all_eq_true.mp (by decide)⟩ .nil⟩
  have hx : UpTo 2 "\té, _".toList ['\t'] := by
    have := upTo_takeBytes 2 "\té, _".toList
    rwa [show takeBytes 2 "\té, _".toList = ['\t'] by decide +kernel] at this
  refine ⟨hline, ((htext _ _ _ _ hrun hx).1.mpr ?_).trans (by decide +kernel)⟩
  rintro ⟨-, hcount, -⟩
  exact absurd hcount (by decide +kernel)

/-- A call that goes on is lost on the empty line behind it. -/
theorem continuedPrefix_lost :
    lineAt? 1 "Foo(1, _\n".toList = some [] ∧
    RunBefore "Foo(1, _\n".toList 1 [] ["Foo(1, _".toList] ["Foo(1, ".toList] ∧ UpTo 0 [] [] ∧
    continuedPrefix "Foo(1, _\n".toList 1 0 ≠ ["Foo(1, ".toList].flatMap (· ++ [' ']) ++ [] := by
  refine ⟨by decide +kernel, ⟨rfl, by decide +kernel, by decide +kernel, nofun,
    .cons ⟨[], by decide +kernel, nofun⟩ .nil⟩, upTo_takeBytes 0 [], by decide +kernel⟩

end Call

end AutoItServer
