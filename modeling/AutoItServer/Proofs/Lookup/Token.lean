import AutoItServer.Lookup.Variable
import AutoItServer.Proofs.Source.Literal
import AutoItServer.Proofs.Symbol.Outline
import AutoItServer.Proofs.Text.Case

/-!
The variables in the code of a line.

The reader of variables opens a string only at a quote that is closed on the same line, and the
scanner that looks for the comment opens one at every quote outside strings. On a line all of whose
strings are closed they agree.

* `Token`: a name that goes on to the end of its word, outside strings and before the comment.
* `next_modeOf`: one character leads the two readers to the same string, or out of it.
* `mem_findFrom_iff` (**variables are tokens**): the variables that are found are the tokens;
  `pairwise_findFrom`: they are found from left to right.
* `nameAt_eq`, `findNameFrom_eq`: the search for one name looks through the same variables.
* `variables_eq_tokens`: both together, for the variables of a line and for the first occurrence of
  a name.
-/

namespace AutoItServer

namespace Variable

open AutoItServer.Source (quoteAfter stripCommentFrom stripCommentFrom_cons)

variable {quote : Option Char} {mode : Mode} {offset : Nat} {c q : Char} {cs t name : Text}
  {v : Nat × Text}

/-! ### Tokens -/

lemma head?_of_nameHere? (h : nameHere? (c :: cs) = some name) : c = '$' := by
  obtain ⟨⟨word, -, -, rfl⟩, rest, hline, -⟩ := nameHere?_eq_some_iff.mp h
  exact (List.cons.inj hline).1

/-- A variable in a text that starts at a byte offset, when `quote` is open there: a name that goes
on to the end of its word, outside strings and before the comment. -/
def TokenFrom (quote : Option Char) (offset : Nat) (t : Text) (v : Nat × Text) : Prop :=
  ∃ before rest, t = before ++ (v.2 ++ rest) ∧ v.1 = offset + Text.byteLength before ∧ IsName v.2 ∧
    Text.endsWord rest ∧ before.foldl quoteAfter quote = none ∧
    before.length < (stripCommentFrom quote t).length

/-- A variable in the code of a line. -/
def Token (line : Text) (v : Nat × Text) : Prop :=
  TokenFrom none 0 line v

/-- A comment holds no token. -/
lemma not_tokenFrom_semicolon (offset : Nat) (cs : Text) (v : Nat × Text) :
    ¬ TokenFrom none offset (';' :: cs) v := by
  rintro ⟨before, rest, -, -, -, -, -, hcut⟩
  exact Nat.not_lt_zero _ hcut

/-- A token starts at the first character of code or behind it. -/
lemma tokenFrom_cons_iff (hcode : ¬ (quote = none ∧ c = ';')) :
    TokenFrom quote offset (c :: cs) v ↔
      (quote = none ∧ nameHere? (c :: cs) = some v.2 ∧ v.1 = offset) ∨
        TokenFrom (quoteAfter quote c) (offset + c.utf8Size) cs v := by
  rw [nameHere?_eq_some_iff]
  constructor
  · rintro ⟨before, rest, hline, hplace, hname, hrest, hquote, hcut⟩
    rw [stripCommentFrom_cons hcode] at hcut
    cases before with
    | nil => exact Or.inl ⟨hquote, ⟨hname, rest, hline, hrest⟩, hplace⟩
    | cons d before =>
      obtain ⟨rfl, rfl⟩ := List.cons.inj hline
      refine Or.inr ⟨before, rest, rfl, ?_, hname, hrest, hquote, Nat.lt_of_succ_lt_succ hcut⟩
      rw [hplace, Text.byteLength_cons, Nat.add_assoc]
  · rintro (⟨hquote, ⟨hname, rest, hline, hrest⟩, hplace⟩ |
      ⟨before, rest, rfl, hplace, hname, hrest, hquote, hcut⟩)
    · refine ⟨[], rest, hline, hplace, hname, hrest, hquote, ?_⟩
      rw [stripCommentFrom_cons hcode]
      exact Nat.succ_pos _
    · refine ⟨c :: before, rest, rfl, ?_, hname, hrest, hquote, ?_⟩
      · rw [hplace, Text.byteLength_cons, Nat.add_assoc]
      · rw [stripCommentFrom_cons hcode]
        exact Nat.succ_lt_succ hcut

/-! ### The two readers -/

/-- All strings are closed before the comment or the end of the line. -/
def Closed (quote : Option Char) (t : Text) : Prop :=
  (stripCommentFrom quote t).foldl quoteAfter quote = none

lemma Closed.tail (h : Closed quote (c :: cs)) (hcode : ¬ (quote = none ∧ c = ';')) :
    Closed (quoteAfter quote c) cs := by
  rw [Closed, stripCommentFrom_cons hcode] at h
  exact h

/-- A string that is closed before the comment is closed on the line. -/
lemma Closed.closes (h : Closed (some q) t) (hcr : '\r' ∉ t) (hlf : '\n' ∉ t) : closes q t := by
  induction t with
  | nil => cases h
  | cons c cs ih =>
    obtain ⟨hcr', hcr⟩ := not_or.mp (mt List.mem_cons.mpr hcr)
    obtain ⟨hlf', hlf⟩ := not_or.mp (mt List.mem_cons.mpr hlf)
    rw [Variable.closes]
    by_cases hclose : c = q
    · simp [hclose]
    · have htail := h.tail nofun
      rw [quoteAfter, if_neg hclose] at htail
      simp [ih htail hcr hlf, Ne.symm hcr', Ne.symm hlf']

/-- The mode of the reader of variables inside or outside a string. -/
def modeOf (quote : Option Char) : Mode :=
  quote.elim .code .string

/-- One character of code leads both readers to the same string, or out of it. -/
lemma next_modeOf (h : Closed quote (c :: cs)) (hcode : ¬ (quote = none ∧ c = ';'))
    (hcr : '\r' ∉ cs)
    (hlf : '\n' ∉ cs) : (modeOf quote).next c cs = modeOf (quoteAfter quote c) := by
  cases quote with
  | none =>
    by_cases hquote : isQuote c
    · have htail := h.tail hcode
      rw [quoteAfter, if_pos hquote] at htail ⊢
      show (if isQuote c && closes c cs then Mode.string c else _) = Mode.string c
      rw [hquote, htail.closes hcr hlf]
      rfl
    · have hsemicolon : c ≠ ';' := fun hc => hcode ⟨rfl, hc⟩
      rw [quoteAfter, if_neg hquote]
      show (if isQuote c && closes c cs then Mode.string c
        else if c = ';' then .comment else .code) = .code
      rw [Bool.eq_false_iff.mpr hquote, if_neg hsemicolon]
      rfl
  | some q =>
    rw [quoteAfter]
    show (if c = q then Mode.code else .string q) = _
    split_ifs <;> rfl

/-! ### The variables that are found -/

/-- The variable at the start of a text. -/
def here? (mode : Mode) (offset : Nat) (t : Text) : Option (Nat × Text) :=
  if mode = .code then (nameHere? t).map fun name => (offset, name) else none

lemma findFrom_cons (mode : Mode) (offset : Nat) (c : Char) (cs : Text) :
    findFrom mode offset (c :: cs) =
      (here? mode offset (c :: cs)).toList ++ findFrom (mode.next c cs)
        (offset + c.utf8Size) cs := by
  rw [findFrom, here?]
  split_ifs
  · cases nameHere? (c :: cs) <;> rfl
  · rfl

lemma here?_eq_some_iff : here? mode offset t = some v ↔ mode = .code ∧ nameHere? t = some v.2 ∧
    v.1 = offset := by
  rw [here?]
  split_ifs with hmode
  · rw [Option.map_eq_some_iff]
    constructor
    · rintro ⟨name, hname, rfl⟩
      exact ⟨hmode, hname, rfl⟩
    · rintro ⟨-, hname, hplace⟩
      exact ⟨v.2, hname, Prod.ext hplace.symm rfl⟩
  · simp [hmode]

lemma modeOf_eq_code_iff : modeOf quote = .code ↔ quote = none := by
  cases quote <;> simp [modeOf]

/-- In a comment no variable is found. -/
lemma findFrom_comment (offset : Nat) (hlf : '\n' ∉ t) : findFrom .comment offset t = [] := by
  induction t generalizing offset with
  | nil => rfl
  | cons c cs ih =>
    obtain ⟨hc, hlf⟩ := not_or.mp (mt List.mem_cons.mpr hlf)
    have hnext : Mode.comment.next c cs = .comment := if_neg (Ne.symm hc)
    rw [findFrom_cons, hnext, ih _ hlf]
    rfl

/-- **Variables are tokens** on a line all of whose strings are closed. -/
lemma mem_findFrom_iff (h : Closed quote t) (hcr : '\r' ∉ t) (hlf : '\n' ∉ t) :
    v ∈ findFrom (modeOf quote) offset t ↔ TokenFrom quote offset t v := by
  induction t generalizing quote offset with
  | nil =>
    refine iff_of_false nofun ?_
    rintro ⟨before, rest, -, -, -, -, -, hcut⟩
    exact Nat.not_lt_zero _ hcut
  | cons c cs ih =>
    replace hcr := (not_or.mp (mt List.mem_cons.mpr hcr)).2
    replace hlf := (not_or.mp (mt List.mem_cons.mpr hlf)).2
    by_cases hstart : quote = none ∧ c = ';'
    · obtain ⟨rfl, rfl⟩ := hstart
      refine iff_of_false ?_ (not_tokenFrom_semicolon offset cs v)
      have hnext : (modeOf none).next ';' cs = .comment := rfl
      rw [findFrom_cons, hnext, findFrom_comment _ hlf]
      exact List.not_mem_nil
    · -- the name at the first character, and the names behind it, on both sides
      rw [findFrom_cons, next_modeOf h hstart hcr hlf, List.mem_append, Option.mem_toList,
        here?_eq_some_iff,
        modeOf_eq_code_iff, ih (h.tail hstart) hcr hlf, tokenFrom_cons_iff hstart]

lemma le_of_mem_findFrom (h : v ∈ findFrom mode offset t) : offset ≤ v.1 := by
  obtain ⟨before, -, -, -, hplace, -⟩ := exists_of_mem_findFrom h
  exact hplace ▸ Nat.le_add_right _ _

/-- Variables are found from left to right. -/
lemma pairwise_findFrom (mode : Mode) (offset : Nat) (t : Text) :
    (findFrom mode offset t).Pairwise fun v w => v.1 < w.1 := by
  induction t generalizing mode offset with
  | nil => exact List.Pairwise.nil
  | cons c cs ih =>
    rw [findFrom_cons, List.pairwise_append]
    refine ⟨?_, ih _ _, fun v hv w hw => ?_⟩
    · cases here? mode offset (c :: cs) with
      | none => exact List.Pairwise.nil
      | some v => exact List.pairwise_singleton _ v
    · obtain ⟨-, -, hplace⟩ := here?_eq_some_iff.mp (Option.mem_toList.mp hv)
      have hlater := le_of_mem_findFrom hw
      have hpos := c.utf8Size_pos
      omega

/-! ### The search for one name -/

lemma isWord_asciiLower (c : Char) : isWord c = isWord (asciiLower c) :=
  beq_iff_eq.mp (forall_asciiLower (p := fun c d => isWord c == isWord d)
      (fun _ => beq_self_eq_true _)
    (by decide +kernel) c)

/-- A name in another case is a name. -/
lemma IsName.of_sameIgnoringCase {other : Text} (h : IsName name)
    (hsame : Text.sameIgnoringCase other name) :
    IsName other := by
  obtain ⟨word, hne, hword, rfl⟩ := h
  cases other with
  | nil => cases Text.length_eq_of_sameIgnoringCase hsame
  | cons d other =>
    obtain ⟨hd, hother⟩ := (Text.sameIgnoringCase_cons d '$' other word).mp hsame
    refine ⟨other, ?_, fun c hc => ?_, ?_⟩
    · rintro rfl
      exact hne (List.length_eq_zero_iff.mp (Text.length_eq_of_sameIgnoringCase hother).symm)
    · rw [Text.sameIgnoringCase, beq_iff_eq] at hother
      have hlower : asciiLower c ∈ Text.asciiLower word := hother ▸ List.mem_map_of_mem hc
      obtain ⟨e, he, hlower⟩ := List.mem_map.mp hlower
      rw [isWord_asciiLower, ← hlower, ← isWord_asciiLower]
      exact hword e he
    · have hdollar : asciiLower d = '$' := hd
      rw [eq_of_asciiLower_eq hdollar (by decide)]

/-- The end of a name is a word boundary if the word ends there. -/
lemma IsName.boundaryAfter_eq (h : IsName name) (before : Option Char) (rest : Text) :
    boundaryAfter before name rest = Text.endsWord rest := by
  obtain ⟨word, hne, hword, rfl⟩ := h
  have hlast : ('$' :: word).getLast? = some (word.getLast hne) := by
    rw [List.getLast?_cons, List.getLast?_eq_some_getLast hne, Option.getD_some]
  have hends : isWord (word.getLast hne) := hword _ (List.getLast_mem hne)
  rw [boundaryAfter, hlast]
  cases rest with
  | nil => simp [hends, Text.endsWord]
  | cons c rest => simp [hends, Text.endsWord]

/-- In ASCII texts the name is found where a variable of this name stands. -/
lemma nameAt_eq (hname : IsName name) (hascii : Text.IsAscii name) (ht : Text.IsAscii t)
    (before : Option Char) :
    nameAt name before t = (nameHere? t).any fun n => Text.sameIgnoringCase n name := by
  rw [Bool.eq_iff_iff, Option.any_eq_true, nameAt]
  constructor
  · intro h
    split at h
    next rest hafter =>
      obtain ⟨word, rfl, hsame⟩ := (Text.afterFolded?_eq_some_iff hascii ht).mp hafter
      have hword := hname.of_sameIgnoringCase hsame
      rw [List.take_left' (Text.length_eq_of_sameIgnoringCase hsame), hword.boundaryAfter_eq] at h
      exact ⟨word, nameHere?_eq_some_iff.mpr ⟨hword, rest, rfl, h⟩, hsame⟩
    next => cases h
  · rintro ⟨word, hhere, hsame⟩
    obtain ⟨hword, rest, rfl, hrest⟩ := nameHere?_eq_some_iff.mp hhere
    simp only [(Text.afterFolded?_eq_some_iff hascii ht).mpr ⟨word, rfl, hsame⟩]
    rw [List.take_left' (Text.length_eq_of_sameIgnoringCase hsame), hword.boundaryAfter_eq]
    exact hrest

/-- **The search for one name** looks through the variables of the text. -/
lemma findNameFrom_eq (hname : IsName name) (hascii : Text.IsAscii name)
    (ht : Text.IsAscii t) (mode : Mode) (fresh : Bool) (before : Option Char) (offset : Nat) :
    findNameFrom name mode fresh before offset t =
      ((findFrom mode offset t).find? fun v => Text.sameIgnoringCase v.2 name).map Prod.fst := by
  have hne : name.isEmpty = false := by
    obtain ⟨word, -, -, rfl⟩ := hname
    rfl
  induction t generalizing mode fresh before offset with
  | nil =>
    rw [findNameFrom, nameAt_eq hname hascii ht]
    simp [nameHere?, findFrom]
  | cons c cs ih =>
    have hcs := (List.forall_mem_cons.mp ht).2
    rw [findNameFrom, nameAt_eq hname hascii ht, findFrom_cons, List.find?_append, ih hcs, hne]
    cases hhere : here? mode offset (c :: cs) with
    | none =>
      -- where no name stands, the one that is looked for does not stand either
      have hnone : (mode = .code && (nameHere? (c :: cs)).any fun n =>
          Text.sameIgnoringCase n name) = false := by
        rw [here?] at hhere
        split_ifs at hhere with hmode
        · rw [Option.map_eq_none_iff.mp hhere, Option.any_none, Bool.and_false]
        · rw [decide_eq_false hmode, Bool.false_and]
      rw [if_neg]
      · rfl
      · intro hall
        simp only [Bool.and_eq_true] at hall
        rw [hall.1.1.1, hall.1.2] at hnone
        cases hnone
    | some v =>
      obtain ⟨rfl, hfound, rfl⟩ := here?_eq_some_iff.mp hhere
      obtain rfl := head?_of_nameHere? hfound
      -- a `$` opens neither a string nor a comment, which would be read first
      have hnext : Mode.code.next '$' cs = .code := rfl
      rw [hnext, hfound]
      by_cases hsame : Text.sameIgnoringCase v.2 name
      · simp [hsame]
      · simp [hsame]

end Variable

namespace Lookup

open AutoItServer.Variable (IsName Token findAll find?)

variable {line name : Text}

/-- A text without line breaks that opens no block comment is one line of code. -/
lemma codeLines_of_one_line (hne : line ≠ []) (hcr : '\r' ∉ line) (hlf : '\n' ∉ line)
    (hblock : ¬ Source.isBlockStart line) : Source.codeLines line = [⟨0, 0, line⟩] := by
  have hkeep : Text.dropTerminator line = line := by
    obtain rfl | ⟨x, c, rfl⟩ := List.eq_nil_or_concat line
    · rfl
    · rw [List.concat_eq_append] at hcr hlf ⊢
      refine Text.dropTerminator_concat ?_ ?_ x
      · rintro rfl
        exact hlf (List.mem_append_right x (List.mem_singleton_self _))
      · rintro rfl
        exact hcr (List.mem_append_right x (List.mem_singleton_self _))
  have hshown : Source.hides 0 line = false := by
    rw [Source.hides, Bool.eq_false_iff.mpr hblock]
    rfl
  rw [Source.codeLines, Text.lines, Text.rawLines_of_lf_not_mem hlf hne, Text.numberLines,
    Text.numberLines, hkeep, Source.visibleFrom, Source.visibleFrom, hshown]
  rfl

/-- There the first occurrence of a name is that in the line. -/
lemma firstOccurrence?_of_one_line (hcr : '\r' ∉ line) (hlf : '\n' ∉ line)
    (hblock : ¬ Source.isBlockStart line)
    (hname : IsName name) : firstOccurrence? line name = find? name line := by
  by_cases hne : line = []
  · obtain ⟨word, -, -, rfl⟩ := hname
    subst hne
    rfl
  · rw [firstOccurrence?, codeLines_of_one_line hne hcr hlf hblock, List.findSome?_singleton]
    simp

/-- **Variables of a line**: on a line without line breaks all of whose strings are closed, the
variables are the tokens, from left to right, and on an ASCII line that opens no block comment the
first occurrence of an ASCII name is the first token with this name in any case. -/
theorem variables_eq_tokens (hcr : '\r' ∉ line) (hlf : '\n' ∉ line)
    (hclosed : (Source.stripComment line).foldl Source.quoteAfter none = none) :
    (∀ v, v ∈ findAll line ↔ Token line v) ∧
    (findAll line).Pairwise (fun v w => v.1 < w.1) ∧
    (Text.IsAscii line → ¬ Source.isBlockStart line → ∀ name, Text.IsAscii name → IsName name →
      firstOccurrence? line name =
        ((findAll line).find? fun v => Text.sameIgnoringCase v.2 name).map Prod.fst) := by
  refine ⟨fun v => Variable.mem_findFrom_iff hclosed hcr hlf, Variable.pairwise_findFrom _ _ _, ?_⟩
  intro hline hblock name hascii hname
  rw [firstOccurrence?_of_one_line hcr hlf hblock hname]
  exact Variable.findNameFrom_eq hname hascii hline _ _ _ _

/-- A line with a longer name, with names and the other quote in its strings, and a quote in its
comment. -/
def mixedLine : Text :=
  "$abc = \"$AB;\" & '\"$ab' & $AB ; $ab \"".toList

/-- The only `$ab` in the code stands behind the strings, and `$no` stands nowhere. -/
theorem variables_eq_tokens_mixed :
    ('\r' ∉ mixedLine ∧ '\n' ∉ mixedLine ∧
      (Source.stripComment mixedLine).foldl Source.quoteAfter none = none ∧ Text.IsAscii mixedLine ∧
      ¬ Source.isBlockStart mixedLine) ∧
    (Token mixedLine (0, "$abc".toList) ∧ Token mixedLine (25, "$AB".toList) ∧
      ¬ Token mixedLine (8, "$AB".toList)) ∧
    firstOccurrence? mixedLine "$ab".toList = some 25 ∧
    firstOccurrence? mixedLine "$no".toList = none := by
  have hcr : '\r' ∉ mixedLine := by decide
  have hlf : '\n' ∉ mixedLine := by decide
  have hclosed : (Source.stripComment mixedLine).foldl Source.quoteAfter none = none := by decide
  have hascii : Text.IsAscii mixedLine := by decide
  have hblock : ¬ Source.isBlockStart mixedLine := by decide
  have hfound : findAll mixedLine = [(0, "$abc".toList), (25, "$AB".toList)] := by decide
  have hab : IsName "$ab".toList := ⟨"ab".toList, by decide, List.all_eq_true.mp (by decide), rfl⟩
  have hno : IsName "$no".toList := ⟨"no".toList, by decide, List.all_eq_true.mp (by decide), rfl⟩
  obtain ⟨htokens, -, hfirst⟩ := variables_eq_tokens hcr hlf hclosed
  rw [hfound] at htokens hfirst
  refine ⟨⟨hcr, hlf, hclosed, hascii, hblock⟩,
    ⟨(htokens _).mp (by decide), (htokens _).mp (by decide),
    mt (htokens _).mpr (by decide)⟩, ?_, ?_⟩
  · exact hfirst hascii hblock _ (by decide) hab
  · exact hfirst hascii hblock _ (by decide) hno

end Lookup

end AutoItServer
