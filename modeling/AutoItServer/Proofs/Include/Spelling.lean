import AutoItServer.Include.Directive
import AutoItServer.Proofs.Text.Case
import AutoItServer.Proofs.Text.Class

/-!
The grammar of include lines.

* `Directive.Spelling`: an include line in its parts, which carry the conditions under which they
  are one.
* `Spelling.text_injective` (**one way to read a line**): each part ends where its class of
  characters does.
* `Spelling.parse?_text`, `exists_spelling_of_parse?`: every spelling is read, and nothing else is.
* `parse?_eq_some_iff_spelling` (**exactly the grammar**): the directive on a line is the one of its
  spelling.
* `parse?_concat_cr`: a carriage return behind a line spoils the directive, unless a comment takes
  it in.
-/

namespace AutoItServer

namespace Directive

variable {line : Text} {n : Nat} {d : Directive}

/-! ### Delimiters -/

/-- The characters between which a file is named. -/
inductive Delimiter where
  | double
  | single
  | angle
deriving DecidableEq

namespace Delimiter

/-- The character before the file. -/
def opening : Delimiter → Char
  | double => doubleQuote
  | single => apostrophe
  | angle => '<'

/-- The character behind the file. -/
def closing : Delimiter → Char
  | double => doubleQuote
  | single => apostrophe
  | angle => '>'

/-- The kind of directive. -/
def kind : Delimiter → IncludeKind
  | angle => .bracketed
  | _ => .quoted

lemma opening_injective : Function.Injective opening := by
  intro a b h
  cases a <;> cases b <;> first | rfl | exact absurd h (by decide)

lemma not_isIndent_opening (m : Delimiter) : ¬ isIndent m.opening := by
  cases m <;> decide

end Delimiter

lemma delimiter?_opening (m : Delimiter) : delimiter? m.opening = some (m.kind, m.closing) := by
  cases m <;> rfl

lemma exists_delimiter {c close : Char} {kind : IncludeKind}
    (h : delimiter? c = some (kind, close)) :
    ∃ m : Delimiter, m.opening = c ∧ m.kind = kind ∧ m.closing = close := by
  rw [delimiter?] at h
  split_ifs at h with hquote hangle
  · obtain ⟨rfl, rfl⟩ := Prod.mk.inj (Option.some.inj h)
    rw [isQuote, Bool.or_eq_true, beq_iff_eq, beq_iff_eq] at hquote
    rcases hquote with rfl | rfl
    · exact ⟨.double, rfl, rfl, rfl⟩
    · exact ⟨.single, rfl, rfl, rfl⟩
  · obtain ⟨rfl, rfl⟩ := Prod.mk.inj (Option.some.inj h)
    exact ⟨.angle, hangle.symm, rfl, rfl⟩

/-! ### Spellings -/

/-- **An include line in its parts**: blanks, `#include` in any case of its ASCII letters, blanks,
the file between its delimiters, blanks, and perhaps a comment, given without its `;`. The file is
what is left of the text between the delimiters when it is trimmed, and something is. -/
@[ext]
structure Spelling where
  indent : Text
  word : Text
  gap : Text
  delimiter : Delimiter
  raw : Text
  pad : Text
  comment : Option Text
  indent_blank : ∀ c ∈ indent, isIndent c
  word_eq : Text.asciiLower word = "#include".toList
  gap_blank : ∀ c ∈ gap, isIndent c
  closing_notMem : delimiter.closing ∉ raw
  cr_notMem : '\r' ∉ raw
  spec_ne_nil : Text.trim raw ≠ []
  pad_blank : ∀ c ∈ pad, isIndent c

namespace Spelling

/-- The comment with its `;`. -/
def remark (w : Spelling) : Text :=
  w.comment.elim [] (';' :: ·)

/-- What stands behind the word. -/
def behindWord (w : Spelling) : Text :=
  w.gap ++ w.delimiter.opening :: (w.raw ++ w.delimiter.closing :: (w.pad ++ w.remark))

/-- The line. -/
def text (w : Spelling) : Text :=
  w.indent ++ (w.word ++ w.behindWord)

/-- The kind of the directive. -/
def kind (w : Spelling) : IncludeKind :=
  w.delimiter.kind

/-- The file that is named. -/
def spec (w : Spelling) : Text :=
  Text.trim w.raw

/-! #### Where the parts end -/

lemma length_word (w : Spelling) : w.word.length = 8 := by
  have hlength := congrArg List.length w.word_eq
  rwa [Text.asciiLower, List.length_map] at hlength

/-- The word starts with its `#`. -/
lemma not_isIndent_of_word (w : Spelling) (rest : Text) :
    ∀ c, (w.word ++ rest).head? = some c → ¬ isIndent c := by
  intro c hc
  have hword := w.word_eq
  cases hcons : w.word with
  | nil =>
    rw [hcons] at hword
    cases hword
  | cons first letters =>
    rw [hcons] at hc hword
    obtain rfl := Option.some.inj hc
    rw [Text.asciiLower, List.map_cons] at hword
    rw [eq_of_asciiLower_eq (List.cons.inj hword).1 (by decide)]
    decide

lemma not_isIndent_of_opening (w : Spelling) (rest : Text) :
    ∀ c, (w.delimiter.opening :: rest).head? = some c → ¬ isIndent c := by
  rintro c ⟨⟩
  exact w.delimiter.not_isIndent_opening

lemma ne_closing_of_mem_raw (w : Spelling) : ∀ c ∈ w.raw, decide (c ≠ w.delimiter.closing) := by
  intro c hc
  rw [decide_eq_true_iff]
  rintro rfl
  exact w.closing_notMem hc

lemma eq_closing_of_head? {close : Char} (rest : Text) :
    ∀ c, (close :: rest).head? = some c → ¬ decide (c ≠ close) := by
  rintro c ⟨⟩
  simp

lemma not_isIndent_of_remark (w : Spelling) : ∀ c, w.remark.head? = some c → ¬ isIndent c := by
  intro c hc
  rw [remark] at hc
  cases hcomment : w.comment with
  | none =>
    rw [hcomment] at hc
    cases hc
  | some comment =>
    rw [hcomment] at hc
    obtain rfl := Option.some.inj hc
    decide

lemma comment_eq_of_remark_eq {w w' : Spelling} (h : w.remark = w'.remark) :
    w.comment = w'.comment := by
  rw [remark, remark] at h
  cases hw : w.comment with
  | none =>
    cases hw' : w'.comment with
    | none => rfl
    | some comment' =>
      rw [hw, hw'] at h
      cases h
  | some comment =>
    cases hw' : w'.comment with
    | none =>
      rw [hw, hw'] at h
      cases h
    | some comment' =>
      rw [hw, hw'] at h
      exact congrArg some (List.cons.inj h).2

/-- **A line is read in one way only.** -/
lemma text_injective : Function.Injective text := by
  intro w w' h
  -- the two lines are cut part by part, from the left
  obtain ⟨hindent, h⟩ := Text.span_unique w.indent_blank (w.not_isIndent_of_word _) w'.indent_blank
    (w'.not_isIndent_of_word _) h
  obtain ⟨hword, h⟩ := List.append_inj h (w.length_word.trans w'.length_word.symm)
  obtain ⟨hgap, h⟩ := Text.span_unique w.gap_blank (w.not_isIndent_of_opening _) w'.gap_blank
    (w'.not_isIndent_of_opening _) h
  obtain ⟨hopening, h⟩ := List.cons.inj h
  have hdelimiter := Delimiter.opening_injective hopening
  have hraw' := w'.ne_closing_of_mem_raw
  rw [← hdelimiter] at hraw' h
  obtain ⟨hraw, h⟩ := Text.span_unique w.ne_closing_of_mem_raw (eq_closing_of_head? _) hraw'
    (eq_closing_of_head? _) h
  obtain ⟨hpad, h⟩ := Text.span_unique w.pad_blank w.not_isIndent_of_remark w'.pad_blank
    w'.not_isIndent_of_remark (List.cons.inj h).2
  exact Spelling.ext hindent hword hgap hdelimiter hraw hpad (comment_eq_of_remark_eq h)

/-! #### Spellings are read -/

lemma isRest_pad (w : Spelling) (h : '\n' ∉ w.remark) : isRest (w.pad ++ w.remark) := by
  rw [isRest, Text.dropWhile_span w.pad_blank w.not_isIndent_of_remark]
  rw [remark] at h ⊢
  cases hcomment : w.comment with
  | none => rfl
  | some comment =>
    rw [hcomment] at h
    simpa using h

/-- **Every spelling is read.** -/
lemma parse?_text (w : Spelling) (h : '\n' ∉ w.text) (n : Nat) :
    parse? w.text n = some ⟨w.kind, w.spec, n⟩ := by
  have hindent : w.text.dropWhile isIndent = w.word ++ w.behindWord :=
    Text.dropWhile_span w.indent_blank (w.not_isIndent_of_word _)
  have hword : Text.afterFolded? "#include".toList (w.word ++ w.behindWord) =
      some w.behindWord := by
    rw [← w.word_eq, Text.afterFolded?_asciiLower]
  have hgap : w.behindWord.dropWhile isIndent =
      w.delimiter.opening :: (w.raw ++ w.delimiter.closing :: (w.pad ++ w.remark)) :=
    Text.dropWhile_span w.gap_blank (w.not_isIndent_of_opening _)
  have hraw : (w.raw ++ w.delimiter.closing :: (w.pad ++ w.remark)).takeWhile
      (· ≠ w.delimiter.closing) = w.raw :=
    Text.takeWhile_span w.ne_closing_of_mem_raw (eq_closing_of_head? _)
  have hlf : '\n' ∉ w.raw ∧ '\n' ∉ w.remark := by
    simp only [text, behindWord, List.mem_append, List.mem_cons, not_or] at h
    exact ⟨h.2.2.2.2.1, h.2.2.2.2.2.2.2⟩
  have hbreaks : (w.raw.any fun c => c == '\r' || c == '\n') = false := by
    rw [List.any_eq_false]
    intro c hc hbreak
    rw [Bool.or_eq_true, beq_iff_eq, beq_iff_eq] at hbreak
    rcases hbreak with rfl | rfl
    · exact w.cr_notMem hc
    · exact hlf.1 hc
  have hne : w.raw ≠ [] := by
    intro hnil
    exact w.spec_ne_nil (by rw [hnil]; rfl)
  have hspec := w.spec_ne_nil
  rw [parse?, hindent, hword]
  simp only [Option.bind_eq_bind, Option.bind_some, hgap, delimiter?_opening, hraw, List.drop_left]
  rw [if_neg, if_neg]
  · rfl
  · simpa using hspec
  · simp [hne, hbreaks, w.isRest_pad hlf.2]

end Spelling

/-! ### What is read is a spelling -/

lemma keyword_eq : "#include".toList = '#' :: "include".toList := rfl

lemma exists_keyword_of_afterFolded? {s rest : Text}
    (h : Text.afterFolded? "#include".toList s = some rest) :
    ∃ word, s = word ++ rest ∧ Text.asciiLower word = "#include".toList := by
  rw [keyword_eq] at h ⊢
  obtain ⟨c, cs, rfl, hc⟩ := Text.exists_cons_of_afterFolded? h
  rw [Text.afterFolded?, if_pos hc] at h
  obtain rfl : c = '#' := eq_of_sameFold (by decide) (by decide) (by decide +kernel) hc
  obtain ⟨letters, rfl, hletters⟩ :=
    Text.exists_word_of_afterFolded? (Text.foldsFromAscii_of_all (by decide +kernel)) h
  refine ⟨'#' :: letters, rfl, ?_⟩
  rw [Text.asciiLower, List.map_cons, ← Text.asciiLower, hletters]
  rfl

/-- A text is cut at the first closing character. -/
lemma eq_append_of_drop {close x : Char} {behind rest : Text}
    (h : behind.drop (behind.takeWhile (· ≠ close)).length = x :: rest) :
    behind = behind.takeWhile (· ≠ close) ++ close :: rest := by
  have hcut := List.takeWhile_append_dropWhile (p := (· ≠ close)) (l := behind)
  have hdrop : behind.dropWhile (· ≠ close) = x :: rest :=
    (List.drop_left' rfl).symm.trans ((congrArg _ hcut).trans h)
  have hx := List.head?_dropWhile_not (fun c => decide (c ≠ close)) behind
  rw [hdrop] at hx
  obtain rfl : x = close := by simpa using hx
  rw [hdrop] at hcut
  exact hcut.symm

/-- Where nothing but blanks and a comment is left. -/
lemma exists_comment_of_isRest {t : Text} (h : isRest t) :
    ∃ (pad : Text) (comment : Option Text), t = pad ++ comment.elim [] (';' :: ·) ∧
      ∀ c ∈ pad, isIndent c := by
  have hpad : ∀ c ∈ t.takeWhile isIndent, isIndent c := fun c hc => List.mem_takeWhile_imp hc
  have hcut := List.takeWhile_append_dropWhile (p := isIndent) (l := t)
  rw [isRest] at h
  split at h
  · rename_i hdrop
    rw [hdrop] at hcut
    exact ⟨_, none, hcut.symm, hpad⟩
  · rename_i c cs hdrop
    rw [Bool.and_eq_true, beq_iff_eq] at h
    rw [hdrop, h.1] at hcut
    exact ⟨_, some cs, hcut.symm, hpad⟩

/-- **What is read is a spelling.** -/
lemma exists_spelling_of_parse? (h : parse? line n = some d) :
    ∃ w : Spelling, w.text = line ∧ d = ⟨w.kind, w.spec, n⟩ := by
  rw [parse?] at h
  obtain ⟨rest, hrest, h⟩ := Option.bind_eq_some_iff.mp h
  obtain ⟨word, hline, hword⟩ := exists_keyword_of_afterFolded? hrest
  split at h
  · rename_i c behind hgap
    obtain ⟨⟨kind, close⟩, hdelimiter, h⟩ := Option.bind_eq_some_iff.mp h
    obtain ⟨m, rfl, rfl, rfl⟩ := exists_delimiter hdelimiter
    dsimp only at h
    split at h
    · rename_i x tail hdrop
      have hbehind := eq_append_of_drop hdrop
      have hclosing : m.closing ∉ behind.takeWhile (· ≠ m.closing) := fun hmem => by
        simpa using List.mem_takeWhile_imp hmem
      generalize behind.takeWhile (· ≠ m.closing) = raw at h hbehind hclosing
      by_cases hbad : (raw.isEmpty || raw.any (fun c => c == '\r' || c == '\n') || !isRest tail) =
        true
      · rw [if_pos hbad] at h
        cases h
      · rw [if_neg hbad] at h
        split_ifs at h with hspec
        simp only [Bool.or_eq_true, not_or, List.any_eq_true, not_exists, not_and,
          Bool.not_eq_true', Bool.not_eq_false, beq_iff_eq] at hbad
        obtain ⟨⟨-, hbreaks⟩, hrest⟩ := hbad
        obtain ⟨pad, comment, rfl, hpad⟩ := exists_comment_of_isRest hrest
        have hindent := List.takeWhile_append_dropWhile (p := isIndent) (l := line)
        have hblanks := List.takeWhile_append_dropWhile (p := isIndent) (l := rest)
        rw [hgap, hbehind] at hblanks
        rw [hline, ← hblanks] at hindent
        exact ⟨⟨line.takeWhile isIndent, word, rest.takeWhile isIndent, m, raw, pad, comment,
          fun c hc => List.mem_takeWhile_imp hc, hword,
          fun c hc => List.mem_takeWhile_imp hc, hclosing,
          fun hcr => (hbreaks _ hcr).1 rfl, by simpa using hspec, hpad⟩, hindent,
          (Option.some.inj h).symm⟩
    · cases h
  · cases h

/-! ### Exactly the grammar -/

/-- **Exactly the grammar**: the directive on a line is the one of its spelling, of which there is
one at most. -/
theorem parse?_eq_some_iff_spelling (hline : '\n' ∉ line) (n : Nat) (k : IncludeKind)
    (s : Text) (m : Nat) :
    (parse? line n = some ⟨k, s, m⟩ ↔
      m = n ∧ ∃ w : Spelling, w.text = line ∧ w.kind = k ∧ w.spec = s) ∧
    ∀ w w' : Spelling, w.text = line → w'.text = line → w = w' := by
  refine ⟨⟨fun h => ?_, ?_⟩, fun w w' hw hw' => Spelling.text_injective (hw.trans hw'.symm)⟩
  · obtain ⟨w, hw, hd⟩ := exists_spelling_of_parse? h
    obtain ⟨rfl, rfl, rfl⟩ := Directive.mk.inj hd
    exact ⟨rfl, w, hw, rfl, rfl⟩
  · rintro ⟨rfl, w, rfl, rfl, rfl⟩
    exact w.parse?_text hline m

/-- A directive whose comment holds other delimiters and another directive. -/
def crowdedSpelling : Spelling where
  indent := "\t ".toList
  word := "#INClude".toList
  gap := [' ']
  delimiter := .single
  raw := " a\"b>.au3\t".toList
  pad := ['\t']
  comment := some "see 'c.au3' or #include <d.au3>".toList
  indent_blank := List.all_eq_true.mp (by decide)
  word_eq := by decide
  gap_blank := List.all_eq_true.mp (by decide)
  closing_notMem := by decide
  cr_notMem := by decide
  spec_ne_nil := by decide
  pad_blank := List.all_eq_true.mp (by decide)

/-- The line is a directive for the name between the single quotes, and is put together in one way
only. -/
theorem parse?_eq_some_iff_spelling_crowded :
    '\n' ∉ crowdedSpelling.text ∧
    parse? crowdedSpelling.text 4 = some ⟨.quoted, "a\"b>.au3".toList, 4⟩ ∧
    ∀ w : Spelling, w.text = crowdedSpelling.text → w = crowdedSpelling := by
  have hline : '\n' ∉ crowdedSpelling.text := by decide
  obtain ⟨hparse, hunique⟩ := parse?_eq_some_iff_spelling hline 4 .quoted "a\"b>.au3".toList 4
  exact ⟨hline, hparse.mpr ⟨rfl, crowdedSpelling, rfl, rfl, by decide⟩,
    fun w hw => hunique w _ hw rfl⟩

/-! ### A carriage return behind a line -/

namespace Spelling

/-- The same line with another comment. -/
def commented (w : Spelling) (comment : Text) : Spelling :=
  { w with comment := some comment }

lemma text_commented (w : Spelling) {comment : Text} (h : w.comment = some comment) (more : Text) :
    (w.commented (comment ++ more)).text = w.text ++ more := by
  simp [text, behindWord, remark, commented, h]

/-- A spelling that ends in a carriage return has it in its comment. -/
lemma exists_commented_of_text_eq {w : Spelling} (h : w.text = line ++ ['\r']) :
    ∃ comment, (w.commented comment).text = line := by
  have hlast : w.text.getLast? = some '\r' := by rw [h, List.getLast?_concat]
  cases hcomment : w.comment with
  | none =>
    -- the line ends with a closing delimiter or a blank
    have hend : w.text.getLast? = (w.delimiter.closing :: w.pad).getLast? := by
      simp [text, behindWord, remark, hcomment, List.getLast?_append, List.getLast?_cons]
    rw [hend] at hlast
    rcases List.mem_cons.mp (List.mem_of_getLast? hlast) with hclosing | hpad
    · exact absurd hclosing (by cases w.delimiter <;> decide)
    · exact absurd (w.pad_blank _ hpad) (by decide)
  | some comment =>
    have hend : w.text.getLast? = (';' :: comment).getLast? := by
      simp [text, behindWord, remark, hcomment, List.getLast?_append, List.getLast?_cons]
    rw [hend] at hlast
    obtain ⟨front, hfront⟩ := List.getLast?_eq_some_iff.mp hlast
    cases front with
    | nil => exact absurd (List.cons.inj hfront).1 (by decide)
    | cons c front =>
      obtain rfl := (List.cons.inj hfront).2
      have htext := (w.commented front).text_commented rfl ['\r']
      have hself : (w.commented front).commented (front ++ ['\r']) = w :=
        Spelling.ext rfl rfl rfl rfl rfl rfl hcomment.symm
      rw [hself, h] at htext
      exact ⟨front, (List.append_cancel_right htext).symm⟩

end Spelling

/-- **A carriage return behind a line** spoils the directive on it, unless it is part of a
comment. -/
lemma parse?_concat_cr (hline : '\n' ∉ line) :
    parse? (line ++ ['\r']) n = some d ↔
      ∃ w : Spelling, w.text = line ∧ w.comment ≠ none ∧ d = ⟨w.kind, w.spec, n⟩ := by
  constructor
  · intro h
    obtain ⟨w, hw, rfl⟩ := exists_spelling_of_parse? h
    obtain ⟨comment, htext⟩ := Spelling.exists_commented_of_text_eq hw
    exact ⟨w.commented comment, htext, Option.some_ne_none _, rfl⟩
  · rintro ⟨w, rfl, hcomment, rfl⟩
    obtain ⟨comment, hcomment⟩ := Option.ne_none_iff_exists'.mp hcomment
    have htext := w.text_commented hcomment ['\r']
    have hparse := (w.commented (comment ++ ['\r'])).parse?_text (by rw [htext]; simp [hline]) n
    rwa [htext] at hparse

end Directive

end AutoItServer
