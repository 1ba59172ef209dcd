import AutoItServer.Proofs.Checker.Display
import AutoItServer.Proofs.Text.Class
import AutoItServer.Proofs.Text.Line

/-!
Reading what the checker writes.

The output of the checker is a text of lines. Some are findings, written in one form; the others
hold no quote, and may be anything else.

* `Finding.Written`: a finding as it is written, with what its parts may be.
* `Written.parse?_text` (**one line**): it is read back, with line and column counted from zero.
* `Report.outputText`: the lines of an output, with `LF` or `CRLF` between two of them.
* `strictLines_outputText`: as they are read. Only a carriage return before a line feed is lost.
* `components_run`, `head?_run`: the groups of a report are in the order of first appearance, and
  each is named as its first finding is.
* `read_outputText` (**no loss**): the report has every finding of the output, once and in order, in
  the group of its file.
-/

namespace AutoItServer

/-- A text occurs in another one as one of its parts. -/
lemma Text.occursIn_iff {part t : Text} : occursIn part t ↔ part <:+: t := by
  induction t with
  | nil => rw [occursIn, List.isEmpty_iff, List.infix_nil]
  | cons c cs ih =>
    rw [occursIn, Bool.or_eq_true, ih, List.isPrefixOf_iff_prefix, List.infix_cons_iff]

namespace Finding

/-! ### Numbers -/

lemma isDigit_of_mem_ofNat {n : Nat} {c : Char} (h : c ∈ Text.ofNat n) : c.isDigit :=
  Nat.isDigit_of_mem_toDigits (by decide) (by decide) h

/-- The digits of a number end where no digit follows. -/
lemma digits?_ofNat (n : Nat) {c : Char} (hc : ¬ isDecimal c) (rest : Text) :
    digits? (Text.ofNat n ++ c :: rest) = some (Text.ofNat n, c :: rest) := by
  have htake : (Text.ofNat n ++ c :: rest).takeWhile isDecimal = Text.ofNat n :=
    Text.takeWhile_span (fun d hd => isDecimal_of_isDigit (isDigit_of_mem_ofNat hd))
      (by rintro d ⟨⟩; exact hc)
  have hne : (Text.ofNat n).isEmpty = false := by
    rw [List.isEmpty_eq_false_iff]
    exact Nat.toDigits_ne_nil
  rw [digits?, htake, hne, List.drop_left]
  rfl

lemma number?_ofNat {n : Nat} (h : n < Nat.pow 2 32) : number? (Text.ofNat n) = some (n - 1) := by
  have hdigits : (Text.ofNat n).all Char.isDigit :=
    List.all_eq_true.mpr fun c hc => isDigit_of_mem_ofNat hc
  have hvalue : (Text.ofNat n).foldl (fun n c => 10 * n + (c.toNat - 48)) 0 = n := by
    have hchars := Nat.ofDigitChars_ten_toDigits (n := n)
    rwa [Nat.ofDigitChars_eq_foldl] at hchars
  rw [number?, if_pos hdigits, hvalue]
  exact if_pos h

/-! ### One finding -/

/-- **A finding as it is written.** Line and column count from one and fit into 32 bits, the
severity is a word, and the message has no blank at either end. -/
structure Written where
  path : Text
  line : Nat
  column : Nat
  severity : Text
  message : Text
  path_ne_nil : path ≠ []
  quote_notMem_path : '"' ∉ path
  lf_notMem_path : '\n' ∉ path
  line_mem : 1 ≤ line ∧ line < Nat.pow 2 32
  column_mem : 1 ≤ column ∧ column < Nat.pow 2 32
  severity_ne_nil : severity ≠ []
  severity_word : ∀ c ∈ severity, isWord c
  message_solid : Text.Solid message
  lf_notMem_message : '\n' ∉ message

namespace Written

variable (w : Written)

/-- The line: `"path"(line,column) : severity: message`. -/
def text : Text :=
  '"' :: (w.path ++ '"' :: '(' :: (Text.ofNat w.line ++ ',' :: (Text.ofNat w.column ++
    ')' :: ' ' :: ':' :: ' ' :: (w.severity ++ ':' :: ' ' :: w.message))))

/-- The finding that is meant. -/
def finding : Finding where
  path := ⟨w.path⟩
  line := w.line - 1
  column := w.column - 1
  severity := if Text.asciiLower w.severity = "warning".toList then .warning else .error
  message := w.message

/-- Each part ends where its class of characters does. -/
lemma raw?_text : raw? w.text =
    some ⟨w.path, Text.ofNat w.line, Text.ofNat w.column, w.severity, ' ' :: w.message⟩ := by
  have hpath (rest : Text) : (w.path ++ '"' :: rest).takeWhile (· ≠ '"') = w.path := by
    refine Text.takeWhile_span (fun c hc => ?_) (by rintro c ⟨⟩; simp)
    rw [decide_eq_true_iff]
    rintro rfl
    exact w.quote_notMem_path hc
  have hseverity (rest : Text) : (w.severity ++ ':' :: rest).takeWhile isWord = w.severity :=
    Text.takeWhile_span w.severity_word (by rintro c ⟨⟩; decide)
  have hsolid : Text.Solid w.severity := Text.solid_of_forall_not_isBlank w.severity_ne_nil
    fun c hc => not_isBlank_of_isWord (w.severity_word c hc)
  have hcolon (rest : Text) : Text.trimStart (' ' :: ':' :: rest) = ':' :: rest := rfl
  have htrim (rest : Text) : Text.trimStart (' ' :: (w.severity ++ rest)) = w.severity ++ rest :=
    hsolid.trimStart_append rest
  have hpath_ne := w.path_ne_nil
  have hseverity_ne := w.severity_ne_nil
  unfold raw? text
  simp only [hpath, List.drop_left, digits?_ofNat w.line (c := ',') (by decide),
    digits?_ofNat w.column (c := ')') (by decide), hcolon, htrim, hseverity, Option.bind_eq_bind,
    Option.bind_some]
  rw [if_neg (by simpa using hpath_ne), if_neg (by simpa using hseverity_ne)]
  rfl

/-- **A written finding** is read. -/
lemma parse?_text : parse? w.text = some w.finding := by
  have hfirst : firstRaw? w.text = raw? w.text := by
    rw [text, firstRaw?, ← text, w.raw?_text, Option.some_or]
  have hmessage : Text.trim (' ' :: w.message) = w.message := w.message_solid.trim_eq
  have hwarning : Text.asciiLower "warning".toList = "warning".toList := by decide
  rw [parse?, hfirst, raw?_text]
  simp only [Option.bind_eq_bind, Option.bind_some, number?_ofNat w.line_mem.2,
    number?_ofNat w.column_mem.2, hmessage, Text.sameIgnoringCase, hwarning, beq_iff_eq]
  rfl

lemma lf_notMem_text : '\n' ∉ w.text := by
  have hdigits (n : Nat) : '\n' ∉ Text.ofNat n :=
    fun h => absurd (isDigit_of_mem_ofNat h) (by decide)
  have hword : '\n' ∉ w.severity := fun h => absurd (w.severity_word _ h) (by decide)
  simp [text, w.lf_notMem_path, hdigits, hword, w.lf_notMem_message]

/-- The line ends as its message does. -/
lemma getLast?_text : w.text.getLast? ≠ some '\r' := by
  obtain ⟨-, c, hc, hlast⟩ := w.message_solid
  rw [Option.mem_def] at hc
  have hend : w.text.getLast? = some c := by
    simp [text, List.getLast?_append, List.getLast?_cons, hc]
  rw [hend]
  rintro ⟨⟩
  exact hlast (by decide)

end Written

/-- Without a quote there is no finding. -/
lemma parse?_eq_none {t : Text} (h : '"' ∉ t) : parse? t = none := by
  have hraw : firstRaw? t = none := by
    induction t with
    | nil => rfl
    | cons c cs ih =>
      rw [List.mem_cons, not_or] at h
      have hhere : raw? (c :: cs) = none := by
        unfold raw?
        split
        · rename_i heq
          exact absurd (List.cons.inj heq).1.symm h.1
        · rfl
      rw [firstRaw?, hhere, Option.none_or, ih h.2]
  rw [parse?, hraw]
  rfl

end Finding

namespace Report

/-! ### The lines of an output -/

/-- What stands between two lines. -/
inductive Separator where
  | lf
  | crlf

/-- The characters of a separator. -/
def Separator.text : Separator → Text
  | lf => ['\n']
  | crlf => ['\r', '\n']

/-- A line of an output: a finding, or another line without a quote. -/
inductive OutputLine where
  | finding (w : Finding.Written)
  | other (t : Text) (quote : '"' ∉ t) (lf : '\n' ∉ t)

namespace OutputLine

/-- The characters of a line. -/
def text : OutputLine → Text
  | finding w => w.text
  | other t _ _ => t

/-- The finding on a line. -/
def finding? : OutputLine → Option Finding
  | finding w => some w.finding
  | other _ _ _ => none

lemma lf_notMem_text (l : OutputLine) : '\n' ∉ l.text := by
  cases l with
  | finding w => exact w.lf_notMem_text
  | other t _ hlf => exact hlf

lemma parse?_text (l : OutputLine) : Finding.parse? l.text = l.finding? := by
  cases l with
  | finding w => exact w.parse?_text
  | other t hquote _ => exact Finding.parse?_eq_none hquote

end OutputLine

/-- The lines of an output: all but the last one are followed by a separator. -/
def outputLines (body : List (OutputLine × Separator)) (last : OutputLine) : List OutputLine :=
  body.map Prod.fst ++ [last]

/-- The text of an output. -/
def outputText (body : List (OutputLine × Separator)) (last : OutputLine) : Text :=
  body.flatMap (fun e => e.1.text ++ e.2.text) ++ last.text

/-- The findings of an output, in their order. -/
def written (body : List (OutputLine × Separator)) (last : OutputLine) : List Finding :=
  (outputLines body last).filterMap OutputLine.finding?

variable {body : List (OutputLine × Separator)} {last : OutputLine}

/-! ### As they are read -/

/-- A line as it is read: a carriage return before a line feed is no part of it. -/
def shown (e : OutputLine × Separator) : Text :=
  match e.2 with
  | .lf => Text.dropLastIf '\r' e.1.text
  | .crlf => e.1.text

lemma isPrefix_shown (e : OutputLine × Separator) : shown e <+: e.1.text := by
  obtain ⟨l, separator⟩ := e
  cases separator with
  | lf =>
    rcases Text.dropLastIf_spec '\r' l.text with h | h
    · exact ⟨['\r'], h.symm⟩
    · exact h ▸ List.prefix_refl _
  | crlf => exact List.prefix_refl _

lemma parse?_shown (e : OutputLine × Separator) : Finding.parse? (shown e) = e.1.finding? := by
  obtain ⟨l, separator⟩ := e
  cases l with
  | other t hquote _ => exact Finding.parse?_eq_none fun h => hquote ((isPrefix_shown _).subset h)
  | finding w =>
    have hshown : shown (.finding w, separator) = w.text := by
      cases separator with
      | lf => exact if_neg w.getLast?_text
      | crlf => rfl
    rw [hshown, w.parse?_text]
    rfl

lemma strictLines_append_separator (e : OutputLine × Separator) (rest : Text) :
    Text.strictLines (e.1.text ++ e.2.text ++ rest) = shown e :: Text.strictLines rest := by
  obtain ⟨l, separator⟩ := e
  cases separator with
  | lf => simpa [shown, Separator.text] using Text.strictLines_lf l.lf_notMem_text rest
  | crlf =>
    have hline : '\n' ∉ l.text ++ ['\r'] := by simp [l.lf_notMem_text]
    have hlines := Text.strictLines_lf hline rest
    rw [Text.dropLastIf_concat] at hlines
    simpa [shown, Separator.text] using hlines

/-- **The lines of an output** as they are read. An empty last line is none. -/
lemma strictLines_outputText (body : List (OutputLine × Separator)) (last : OutputLine) :
    Text.strictLines (outputText body last) =
      body.map shown ++ if last.text = [] then [] else [last.text] := by
  induction body with
  | nil =>
    rw [outputText, List.flatMap_nil, List.nil_append, List.map_nil, List.nil_append]
    split_ifs with h
    · rw [h]
      rfl
    · exact Text.strictLines_of_lf_not_mem last.lf_notMem_text h
  | cons e body ih =>
    rw [outputText, List.flatMap_cons, List.append_assoc, strictLines_append_separator,
      ← outputText, ih, List.map_cons, List.cons_append]

/-- The findings are read in their order, and nothing else is. -/
lemma filterMap_parse?_outputText (body : List (OutputLine × Separator)) (last : OutputLine) :
    (Text.strictLines (outputText body last)).filterMap Finding.parse? = written body last := by
  rw [strictLines_outputText, written, outputLines, List.filterMap_append, List.filterMap_append,
    List.filterMap_map, List.filterMap_map]
  congr 1
  · exact List.filterMap_congr fun e _ => parse?_shown e
  · rw [List.filterMap_cons, List.filterMap_nil, ← last.parse?_text]
    split_ifs with h
    · rw [h]
      rfl
    · rw [List.filterMap_cons, List.filterMap_nil]

/-- An output is not clean, if none of its lines says so. -/
lemma any_occursIn_outputText (h : ∀ l ∈ outputLines body last, ¬ sentinel <:+: l.text) :
    (Text.strictLines (outputText body last)).any (Text.occursIn sentinel) = false := by
  rw [List.any_eq_false]
  intro line hline hoccurs
  rw [Text.occursIn_iff] at hoccurs
  rw [strictLines_outputText, List.mem_append] at hline
  rcases hline with hline | hline
  · obtain ⟨e, he, rfl⟩ := List.mem_map.mp hline
    exact h e.1 (List.mem_append_left _ (List.mem_map_of_mem he))
      (hoccurs.trans (isPrefix_shown e).isInfix)
  · split_ifs at hline
    · cases hline
    · obtain rfl := List.mem_singleton.mp hline
      exact h last (List.mem_append_right _ (List.mem_singleton_self _)) hoccurs

/-! ### Groups in the order of first appearance -/

/-- **The files of a report**, in the order of their first appearance. -/
lemma components_run (fs : List Finding) :
    (fs.foldl addFinding []).map (fun g => g.1.components) =
      (fs.map fun f => f.path.components).eraseDups := by
  induction fs using List.reverseRecOn with
  | nil => rfl
  | append_singleton fs f ih =>
    have hany : (fs.foldl addFinding []).any (fun g => f.path.same g.1) ↔
        f.path.components ∈ fs.map fun f => f.path.components := by
      rw [← List.mem_eraseDups, ← ih, List.any_eq_true, List.mem_map]
      exact exists_congr fun g => and_congr_right fun _ => by rw [Path.same_iff, eq_comm]
    rw [List.foldl_append, List.foldl_cons, List.foldl_nil,
      addFinding_of_apart (grouped_run fs).apart,
      List.map_append, List.map_map, List.map_append, List.map_singleton,
      OrderedMap.eraseDups_concat, ← ih]
    by_cases hmem : f.path.components ∈ fs.map fun f => f.path.components
    · rw [if_pos hmem, if_pos (hany.mpr hmem), List.map_nil, List.append_nil]
      rfl
    · rw [if_neg hmem, if_neg (mt hany.mp hmem)]
      rfl

/-- A group is named as its first finding is. -/
lemma head?_run (fs : List Finding) :
    ∀ g ∈ fs.foldl addFinding [], g.2.head?.map Finding.path = some g.1 := by
  induction fs using List.reverseRecOn with
  | nil => exact List.forall_mem_nil _
  | append_singleton fs f ih =>
    rw [List.foldl_append, List.foldl_cons, List.foldl_nil,
      addFinding_of_apart (grouped_run fs).apart, List.forall_mem_append]
    constructor
    · intro g hg
      obtain ⟨e, he, rfl⟩ := List.mem_map.mp hg
      obtain ⟨first, hfirst, hpath⟩ := Option.map_eq_some_iff.mp (ih e he)
      rw [grow, List.head?_append, hfirst, Option.some_or, Option.map_some, hpath]
    · intro g hg
      split_ifs at hg
      · cases hg
      · obtain rfl := List.mem_singleton.mp hg
        rfl

/-- **No loss**: an output that does not say that it is clean is read as its findings. Their groups
are the files in the order of first appearance, and each holds the findings of its file in their
order. -/
theorem read_outputText (body : List (OutputLine × Separator)) (last : OutputLine)
    (h : ∀ l ∈ outputLines body last, ¬ sentinel <:+: l.text) :
    ∃ groups, read (outputText body last) = .findings groups ∧
      groups.map (fun g => g.1.components) =
        ((written body last).map fun f => f.path.components).eraseDups ∧
      ∀ g ∈ groups, g.2.head?.map Finding.path = some g.1 ∧
        g.2 = (written body last).filter fun f => f.path.same g.1 := by
  refine ⟨(written body last).foldl addFinding [], ?_, components_run _, fun g hg => ?_⟩
  · rw [read, any_occursIn_outputText h, filterMap_parse?_outputText]
    rfl
  · exact ⟨head?_run _ g hg, (grouped_run _).whole g hg⟩

/-- A warning whose message looks like another finding. -/
def nested : Finding.Written where
  path := "a//b.au3".toList
  line := 12
  column := 4294967295
  severity := "WarninG".toList
  message := "\"c.au3\"(1,1) : error: $x".toList
  path_ne_nil := by decide
  quote_notMem_path := by decide
  lf_notMem_path := by decide
  line_mem := by decide
  column_mem := by decide
  severity_ne_nil := by decide
  severity_word := List.all_eq_true.mp (by decide)
  message_solid := by decide
  lf_notMem_message := by decide

/-- An error in the same file, spelled otherwise. -/
def respelled : Finding.Written :=
  { nested with
    path := "a/./b.au3".toList
    severity := "Fehler".toList
    path_ne_nil := by decide
    quote_notMem_path := by decide
    lf_notMem_path := by decide
    severity_ne_nil := by decide
    severity_word := List.all_eq_true.mp (by decide) }

/-- Both findings, with lines between them. -/
def mixedOutput : List (OutputLine × Separator) :=
  [(.other "Checker\r".toList (by decide) (by decide), .lf), (.finding nested, .lf),
    (.other [] (by decide) (by decide), .crlf), (.finding respelled, .crlf)]

/-- The findings of both spellings come in one group, in the order in which they were written. -/
theorem read_outputText_mixed :
    (∀ l ∈ outputLines mixedOutput (.finding nested), ¬ sentinel <:+: l.text) ∧
    ∃ groups, read (outputText mixedOutput (.finding nested)) = .findings groups ∧
      groups.map (fun g => g.1.components) = [[.name "a".toList, .name "b.au3".toList]] ∧
      ∀ g ∈ groups, g.2 = [nested.finding, respelled.finding, nested.finding] := by
  have hclean : ∀ l ∈ outputLines mixedOutput (.finding nested), ¬ sentinel <:+: l.text := by
    have hnone : ∀ l ∈ outputLines mixedOutput (.finding nested),
        ¬ Text.occursIn sentinel l.text := by
      decide
    exact fun l hl h => hnone l hl (Text.occursIn_iff.mpr h)
  have hsame : ∀ f ∈ written mixedOutput (.finding nested),
      f.path.components = [.name "a".toList, .name "b.au3".toList] := by decide
  obtain ⟨groups, hread, hkeys, hgroups⟩ := read_outputText mixedOutput (.finding nested) hclean
  replace hkeys := hkeys.trans (by decide : _ = [[.name "a".toList, .name "b.au3".toList]])
  refine ⟨hclean, groups, hread, hkeys, fun g hg => ?_⟩
  have hkey : g.1.components = [.name "a".toList, .name "b.au3".toList] := by
    have hmem : g.1.components ∈ groups.map fun g => g.1.components := List.mem_map_of_mem hg
    rw [hkeys] at hmem
    exact List.mem_singleton.mp hmem
  rw [(hgroups g hg).2, List.filter_eq_self.mpr fun f hf =>
    Path.same_iff.mpr ((hsame f hf).trans hkey.symm)]
  rfl

end Report

end AutoItServer
