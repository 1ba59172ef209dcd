import AutoItServer.Source.Comment
import AutoItServer.Proofs.Text.Class
import Mathlib.Data.List.Infix
import Mathlib.Tactic.SplitIfs

/-!
Texts whose strings are complete.

Several scanners read a text character by character, and differ only in what they do outside
strings. What they have in common is said here once: a string is passed over as it stands, and what
counts is the text outside the strings.

* `Source.Outside`: what stands outside the strings of a text.
* `Source.Scanner`: a scanner that copies what it reads; `Scanner.scan_outside` (**complete text**)
  says that it passes over a text with complete strings, in the state to which the characters
  outside lead.
* `Source.Balanced`: brackets of one kind, each of which is closed, and none before it is opened.
* `Source.Encloses`: text that closes no more brackets than are open; `foldl_depthStep` counts those
  that are open behind it.
* `stripComment_outside`: the comment of a line starts behind code that has no `;` outside its
  strings.
* `exists_comment`: a line is its code and a comment, which is empty or starts with a `;` outside
  strings.
-/

namespace AutoItServer

namespace Source

variable {t s u v inside : Text} {c q : Char}

/-! ### Strings -/

lemma isQuote_iff : isQuote c ↔ c = doubleQuote ∨ c = apostrophe := by
  rw [isQuote, Bool.or_eq_true, beq_iff_eq, beq_iff_eq]

/-- What stands outside the strings of a text, all of which are complete. A quote that is doubled
inside a string closes the string and opens it again. -/
inductive Outside : Text → Text → Prop where
  | nil : Outside [] []
  | char {c : Char} {t s : Text} : ¬ isQuote c → Outside t s → Outside (c :: t) (c :: s)
  | literal {q : Char} {inside t s : Text} : isQuote q → q ∉ inside → Outside t s →
      Outside (q :: inside ++ q :: t) s

lemma Outside.append (ht : Outside t s) (hu : Outside u v) : Outside (t ++ u) (s ++ v) := by
  induction ht with
  | nil => exact hu
  | char hc _ ih => exact .char hc ih
  | literal hq hinside _ ih =>
    rw [List.append_assoc, List.cons_append]
    exact .literal hq hinside ih

lemma outside_of_plain (h : t.any isQuote = false) : Outside t t := by
  induction t with
  | nil => exact .nil
  | cons c t ih =>
    obtain ⟨hc, ht⟩ := Bool.or_eq_false_iff.mp h
    exact .char (Bool.eq_false_iff.mp hc) (ih ht)

/-- A scanner that copies what it reads. Inside strings it copies everything. Outside it copies a
quote, and those characters that it `reads` in its state, and goes on in the `next` state. -/
structure Scanner (σ α : Type) where
  scan : Option Char → σ → Text → α
  copy : Char → α → α
  next : σ → Char → σ
  reads : σ → Char → Prop
  inside : ∀ q d c cs, scan (some q) d (c :: cs) = copy c (scan (quoteAfter (some q) c) d cs)
  quote : ∀ q d cs, isQuote q → scan none d (q :: cs) = copy q (scan (some q) d cs)
  char : ∀ c d cs, ¬ isQuote c → reads d c →
    scan none d (c :: cs) = copy c (scan none (next d c) cs)

namespace Scanner

variable {σ α : Type} (S : Scanner σ α)

lemma scan_string (hinside : q ∉ inside) (d : σ) (rest : Text) :
    S.scan (some q) d (inside ++ q :: rest) =
      (inside ++ [q]).foldr S.copy (S.scan none d rest) := by
  induction inside with
  | nil =>
    rw [List.nil_append, S.inside, quoteAfter, if_pos rfl]
    rfl
  | cons c inside ih =>
    obtain ⟨hc, hinside⟩ := not_or.mp (mt List.mem_cons.mpr hinside)
    rw [List.cons_append, S.inside, quoteAfter, if_neg (Ne.symm hc), ih hinside]
    rfl

/-- **Complete text** is passed over, if every character outside its strings is read in its turn. -/
lemma scan_outside (h : Outside t s) {d : σ}
    (hreads : ∀ x c y, s = x ++ c :: y → S.reads (x.foldl S.next d) c) (rest : Text) :
    S.scan none d (t ++ rest) = t.foldr S.copy (S.scan none (s.foldl S.next d) rest) := by
  induction h generalizing d with
  | nil => rfl
  | @char c t s hc _ ih =>
    have htail : ∀ x e y, s = x ++ e :: y → S.reads (x.foldl S.next (S.next d c)) e := by
      rintro x e y rfl
      exact hreads (c :: x) e y rfl
    rw [List.cons_append, S.char c d _ hc (hreads [] c s rfl), ih htail]
    rfl
  | @literal q inside t s hq hinside _ ih =>
    rw [List.append_assoc, List.cons_append, List.cons_append, S.quote q d _ hq,
      S.scan_string hinside, ih hreads, ← List.foldr_append, List.append_assoc]
    rfl

end Scanner

/-! ### Brackets -/

/-- Brackets of one kind that are never closed before they are opened, and are all closed in the
end. -/
structure Balanced (opening closing : Char) (s : Text) : Prop where
  opened : ∀ x, x <+: s → x.count closing ≤ x.count opening
  closed : s.count closing = s.count opening

instance (opening closing : Char) (s : Text) : Decidable (Balanced opening closing s) :=
  decidable_of_iff ((∀ x ∈ s.inits, x.count closing ≤ x.count opening) ∧
      s.count closing = s.count opening)
    ⟨fun h => ⟨fun x hx => h.1 x ((List.mem_inits x s).mpr hx), h.2⟩,
      fun h => ⟨fun x hx => h.opened x ((List.mem_inits x s).mp hx), h.closed⟩⟩

/-- A beginning of two texts in a row. -/
lemma prefix_append_cases {x : Text} (h : x <+: s ++ t) : x <+: s ∨ ∃ y, x = s ++ y ∧ y <+: t := by
  rcases List.prefix_or_prefix_of_prefix h (List.prefix_append s t) with hx | ⟨y, rfl⟩
  · exact Or.inl hx
  · exact Or.inr ⟨y, rfl, (List.prefix_append_right_inj s).mp h⟩

section Balanced

variable {opening closing : Char}

lemma Balanced.append (hs : Balanced opening closing s) (ht : Balanced opening closing t) :
    Balanced opening closing (s ++ t) := by
  refine ⟨fun x hx => ?_, by rw [List.count_append, List.count_append, hs.closed, ht.closed]⟩
  rcases prefix_append_cases hx with hx | ⟨y, rfl, hy⟩
  · exact hs.opened x hx
  · rw [List.count_append, List.count_append, hs.closed]
    exact Nat.add_le_add_left (ht.opened y hy) _

/-- Text without brackets is balanced. -/
lemma balanced_of_not_mem (hopening : opening ∉ s) (hclosing : closing ∉ s) :
    Balanced opening closing s := by
  refine ⟨fun x hx => ?_, ?_⟩
  · rw [List.count_eq_zero_of_not_mem fun h => hclosing (hx.subset h)]
    exact Nat.zero_le _
  · rw [List.count_eq_zero_of_not_mem hopening, List.count_eq_zero_of_not_mem hclosing]

end Balanced

variable {opens closes : Char → Bool}

/-- The brackets that are open after one more character. -/
def depthStep (opens closes : Char → Bool) (depth : Nat) (c : Char) : Nat :=
  if opens c then depth + 1 else if closes c then depth - 1 else depth

/-- A text that closes no more brackets than are open, when `depth` are open at its start. -/
def Encloses (opens closes : Char → Bool) (depth : Nat) (s : Text) : Prop :=
  ∀ x, x <+: s → x.countP closes ≤ depth + x.countP opens

variable {d : Nat}

/-- The number of open brackets is the difference of two counts. -/
lemma foldl_depthStep (hapart : ∀ c, opens c → closes c = false) (h : Encloses opens closes d s) :
    s.foldl (depthStep opens closes) d + s.countP closes = d + s.countP opens := by
  induction s generalizing d with
  | nil => rfl
  | cons c s ih =>
    have hone := h [c] (List.cons_prefix_cons.mpr ⟨rfl, List.nil_prefix⟩)
    have hstep : depthStep opens closes d c + [c].countP closes = d + [c].countP opens := by
      rw [List.countP_singleton, List.countP_singleton] at hone ⊢
      rw [depthStep]
      by_cases hopen : opens c
      · simp [hopen, hapart c hopen]
      · by_cases hclose : closes c
        · simp only [hopen, hclose, if_true, Bool.false_eq_true, if_false] at hone ⊢
          omega
        · simp [hopen, hclose]
    have htail : Encloses opens closes (depthStep opens closes d c) s := by
      intro x hx
      have := h (c :: x) (List.cons_prefix_cons.mpr ⟨rfl, hx⟩)
      rw [← List.singleton_append, List.countP_append, List.countP_append] at this
      omega
    have := ih htail
    rw [List.foldl_cons, ← List.singleton_append, List.countP_append, List.countP_append]
    omega

lemma Encloses.left (h : Encloses opens closes d (s ++ t)) : Encloses opens closes d s :=
  fun _ hx => h _ (hx.trans (List.prefix_append s t))

lemma Encloses.right (hapart : ∀ c, opens c → closes c = false)
    (h : Encloses opens closes d (s ++ t)) :
    Encloses opens closes (s.foldl (depthStep opens closes) d) t := by
  intro x hx
  have := h (s ++ x) (List.prefix_append_right_inj s |>.mpr hx)
  have := foldl_depthStep hapart h.left
  rw [List.countP_append, List.countP_append] at *
  omega

/-- Where a bracket is closed, one is open. -/
lemma Encloses.pos_of_closes (hapart : ∀ c, opens c → closes c = false)
    (h : Encloses opens closes d (s ++ c :: t)) (hc : closes c) :
    0 < s.foldl (depthStep opens closes) d := by
  have hone := h.right hapart [c] (List.cons_prefix_cons.mpr ⟨rfl, List.nil_prefix⟩)
  have hopen : opens c = false := by
    rw [← Bool.not_eq_true]
    intro hopen
    rw [hapart c hopen] at hc
    cases hc
  exact Nat.succ_le_iff.mp (by simpa [hc, hopen] using hone)

/-- Text without brackets leaves the number as it is. -/
lemma encloses_of_plain (h : ∀ c ∈ s, opens c = false ∧ closes c = false) (d : Nat) :
    Encloses opens closes d s ∧ s.foldl (depthStep opens closes) d = d := by
  refine ⟨fun x hx => ?_, ?_⟩
  · rw [List.countP_eq_zero.mpr fun c hc => by simp [(h c (hx.subset hc)).2]]
    exact Nat.zero_le _
  · induction s with
    | nil => rfl
    | cons c s ih =>
      obtain ⟨⟨hopen, hclose⟩, hs⟩ := List.forall_mem_cons.mp h
      rw [List.foldl_cons, depthStep, hopen, hclose]
      exact ih hs

/-- In balanced text no more is closed than is opened, -/
lemma Balanced.encloses {opening closing : Char} (h : Balanced opening closing s) :
    Encloses (· == opening) (· == closing) 0 s := by
  intro x hx
  rw [Nat.zero_add]
  exact h.opened x hx

/-- and nothing is open behind it. -/
lemma Balanced.foldl_depthStep {opening closing : Char} (hne : opening ≠ closing)
    (h : Balanced opening closing s) : s.foldl (depthStep (· == opening) (· == closing)) 0 = 0 := by
  have hapart : ∀ c, c == opening → (c == closing) = false := by
    intro c hc
    rw [beq_iff_eq.mp hc, beq_eq_false_iff_ne]
    exact hne
  have hdepth := Source.foldl_depthStep hapart h.encloses
  have hequal : s.countP (· == closing) = s.countP (· == opening) := h.closed
  omega

/-! ### Comments -/

/-- The scanner for comments stops at a `;`. -/
def commentScanner : Scanner Unit Text where
  scan quote _ := stripCommentFrom quote
  copy := List.cons
  next _ _ := ()
  reads _ c := c ≠ ';'
  inside _ _ _ _ := rfl
  quote _ _ _ hq := by rcases isQuote_iff.mp hq with rfl | rfl <;> rfl
  char c _ cs hc hne := by simp [stripCommentFrom, quoteAfter, hc, hne]

/-- The comment of a line starts behind code that has no `;` outside its strings. -/
lemma stripComment_outside (h : Outside t s) (hs : ';' ∉ s) (rest : Text) :
    stripComment (t ++ rest) = t ++ stripComment rest := by
  have hreads : ∀ x c y, s = x ++ c :: y → c ≠ ';' := by
    rintro x c y rfl rfl
    exact hs (List.mem_append_right _ List.mem_cons_self)
  have hscan := commentScanner.scan_outside h (d := ()) hreads rest
  exact hscan.trans List.foldr_cons_eq_append'

variable {quote : Option Char}

/-- Every character is code, but for a `;` outside strings. -/
lemma stripCommentFrom_cons (h : ¬ (quote = none ∧ c = ';')) (cs : Text) :
    stripCommentFrom quote (c :: cs) = c :: stripCommentFrom (quoteAfter quote c) cs := by
  rw [stripCommentFrom, if_neg]
  simpa using h

/-- **A line is its code and a comment**, which is empty or starts with a `;` outside strings. -/
lemma exists_comment (quote : Option Char) (t : Text) :
    ∃ comment, t = stripCommentFrom quote t ++ comment ∧
      (comment = [] ∨
        (∃ rest, comment = ';' :: rest) ∧
        (stripCommentFrom quote t).foldl quoteAfter quote = none) := by
  induction t generalizing quote with
  | nil => exact ⟨[], rfl, Or.inl rfl⟩
  | cons c cs ih =>
    by_cases hstart : quote = none ∧ c = ';'
    · obtain ⟨rfl, rfl⟩ := hstart
      exact ⟨';' :: cs, rfl, Or.inr ⟨⟨cs, rfl⟩, rfl⟩⟩
    · obtain ⟨comment, hcs, hcomment⟩ := ih (quoteAfter quote c)
      rw [stripCommentFrom_cons hstart]
      refine ⟨comment, ?_, hcomment⟩
      rw [List.cons_append, ← hcs]

end Source

end AutoItServer
