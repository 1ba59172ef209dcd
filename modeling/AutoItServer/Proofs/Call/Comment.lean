import AutoItServer.Proofs.Call.Nested
import AutoItServer.Proofs.Source.Literal

/-!
Where the comment of a line starts.

Two scanners look for the `;` that starts a comment. One of them opens and closes strings at each
quote; the other one waits for the character behind a quote, since a doubled quote is part of the
string.

* `Agree`: the states in which the two can be after the same text; `agree_step` and `agree_foldl`
  say that they stay so up to the comment.
* `Scan.foldl_comment`: behind its start a comment changes nothing.
* `context_stripComment` (**one start of the comment**): the scanner for calls is in a comment
  exactly behind the code of the line, and the call at the end of a line is that at the end of its
  code.
-/

namespace AutoItServer

namespace Call

open AutoItServer.Source (quoteAfter stripComment stripCommentFrom exists_comment)

variable {quote : Option Char} {s : Scan} {t p : Text} {c : Char}

/-- The states of the two scanners after the same text, before any comment. Behind a quote that may
close a string the first one is outside strings already. -/
inductive Agree : Option Char → Mode → Prop where
  | code : Agree none .code
  | string {q : Char} : isQuote q → Agree (some q) (.string q)
  | closed {q : Char} : isQuote q → Agree none (.closed q)

lemma Agree.ne_comment {mode : Mode} (h : Agree quote mode) : mode ≠ .comment := by
  rintro rfl
  cases h

namespace Scan

lemma agree_stepCode (s : Scan) (hc : c ≠ ';') : Agree (quoteAfter none c) (s.stepCode c).mode := by
  rw [quoteAfter, stepCode]
  by_cases hquote : isQuote c
  · rw [if_pos hquote, if_pos hquote]
    exact .string hquote
  · rw [if_neg hquote, if_neg hquote, if_neg hc]
    exact .code

/-- One more character of code. -/
lemma agree_step (h : Agree quote s.mode) (hc : ¬ (quote = none ∧ c = ';')) :
    Agree (quoteAfter quote c) (s.step c).mode := by
  rw [step]
  generalize hmode : s.mode = mode at h
  cases h with
  | code => exact s.agree_stepCode fun hsemicolon => hc ⟨rfl, hsemicolon⟩
  | @string q hq =>
    by_cases hclose : c = q
    · simp only [quoteAfter, if_pos hclose]
      exact .closed hq
    · simp only [quoteAfter, if_neg hclose]
      exact .string hq
  | @closed q hq =>
    by_cases hdouble : c = q
    · -- the doubled quote opens the string again for the one and goes on with it for the other
      subst hdouble
      simp only [quoteAfter, if_pos hq, if_true]
      exact .string hq
    · simp only [if_neg hdouble]
      exact s.agree_stepCode fun hsemicolon => hc ⟨rfl, hsemicolon⟩

/-- **Up to the comment** the two scanners agree. -/
lemma agree_foldl (h : Agree quote s.mode) (hp : p <+: stripCommentFrom quote t) :
    Agree (p.foldl quoteAfter quote) (p.foldl step s).mode := by
  induction t generalizing quote s p with
  | nil =>
    rw [List.prefix_nil.mp hp]
    exact h
  | cons c t ih =>
    by_cases hstart : quote = none ∧ c = ';'
    · obtain ⟨rfl, rfl⟩ := hstart
      rw [List.prefix_nil.mp hp]
      exact h
    · rw [Source.stripCommentFrom_cons hstart] at hp
      cases p with
      | nil => exact h
      | cons d p =>
        obtain ⟨rfl, hp⟩ := List.cons_prefix_cons.mp hp
        rw [List.foldl_cons, List.foldl_cons]
        exact ih (agree_step h hstart) hp

/-- Outside strings a `;` starts a comment and changes no bracket. -/
lemma step_semicolon (h : Agree none s.mode) :
    (s.step ';').mode = .comment ∧ (s.step ';').brackets = s.brackets := by
  have hready : s.Ready := by
    generalize hmode : s.mode = mode at h
    cases h with
    | code => exact Or.inl hmode
    | closed hq => exact Or.inr ⟨_, hq, hmode⟩
  rw [step_of_ready hready (by decide)]
  exact ⟨rfl, rfl⟩

/-- A comment goes on to the end of the line and changes no bracket. -/
lemma foldl_comment (h : s.mode = .comment) (ht : '\n' ∉ t) :
    (t.foldl step s).mode = .comment ∧ (t.foldl step s).brackets = s.brackets := by
  induction t generalizing s with
  | nil => exact ⟨h, rfl⟩
  | cons c t ih =>
    obtain ⟨hc, ht⟩ := not_or.mp (mt List.mem_cons.mpr ht)
    have hstep : s.step c = { s with mode := .comment, read := c :: s.read } := by
      simp only [step, h, if_neg (Ne.symm hc)]
    rw [List.foldl_cons, hstep]
    exact ih rfl ht

/-- A `;` outside strings and what follows it on the line is comment. -/
lemma foldl_semicolon (h : Agree none s.mode) (ht : '\n' ∉ t) :
    ((';' :: t).foldl step s).mode = .comment ∧
    ((';' :: t).foldl step s).brackets = s.brackets := by
  obtain ⟨hmode, hbrackets⟩ := step_semicolon h
  rw [List.foldl_cons, ← hbrackets]
  exact foldl_comment hmode ht

lemma context_congr {s' : Scan} (h : s.brackets = s'.brackets) : s.context = s'.context := by
  rw [context, context, h]

end Scan

open Scan (agree_foldl foldl_semicolon)

/-- **One start of the comment**: on a line, the scanner for calls is in a comment exactly behind
the code, with any quotes before it, so that the call at the end of the line is that at the end of
its code. -/
theorem context_stripComment {line : Text} (h : '\n' ∉ line) :
    context line = context (stripComment line) ∧
    ∀ p, p <+: line →
      ((p.foldl Scan.step Scan.start).mode = .comment ↔ (stripComment line).length < p.length) := by
  have hagree : ∀ p, p <+: stripComment line →
      Agree (p.foldl quoteAfter none) (p.foldl Scan.step Scan.start).mode :=
    fun p hp => agree_foldl .code hp
  have hcode : ∀ p, p <+: stripComment line →
      ((p.foldl Scan.step Scan.start).mode = .comment ↔ (stripComment line).length < p.length) := by
    intro p hp
    exact iff_of_false (hagree p hp).ne_comment (Nat.not_lt.mpr hp.length_le)
  obtain ⟨comment, hline, hcomment⟩ := exists_comment none line
  rw [← stripComment] at hline hcomment
  rcases hcomment with rfl | ⟨⟨rest, rfl⟩, hnone⟩
  · -- there is no comment
    rw [List.append_nil] at hline
    exact ⟨congrArg context hline, fun p hp => hcode p (hline ▸ hp)⟩
  · have hstart := hagree _ (List.prefix_refl _)
    rw [hnone] at hstart
    have hrest : '\n' ∉ rest := by
      intro hmem
      rw [hline] at h
      exact h (List.mem_append_right _ (List.mem_cons_of_mem _ hmem))
    constructor
    · refine Scan.context_congr ?_
      nth_rewrite 1 [hline]
      rw [List.foldl_append]
      exact (foldl_semicolon hstart hrest).2
    · intro p hp
      rw [hline] at hp
      rcases Source.prefix_append_cases hp with hp | ⟨inside, rfl, hinside⟩
      · exact hcode p hp
      · cases inside with
        | nil => exact hcode _ (by rw [List.append_nil])
        | cons c inside =>
          obtain ⟨rfl, hbefore⟩ := List.cons_prefix_cons.mp hinside
          refine iff_of_true ?_
            (by rw [List.length_append]; exact Nat.lt_add_of_pos_right (Nat.succ_pos _))
          rw [List.foldl_append]
          exact (foldl_semicolon hstart fun hmem => hrest (hbefore.subset hmem)).1

/-- A line with a doubled quote, a quote of the other kind and a string with a `;` before its
comment. -/
def trickyLine : Text :=
  "F(\"a\"\"'\", ';', G(1, ; H(\" 2".toList

/-- The second argument of the inner call is being written, and the comment starts behind it. -/
theorem context_stripComment_tricky :
    '\n' ∉ trickyLine ∧ stripComment trickyLine = "F(\"a\"\"'\", ';', G(1, ".toList ∧
    context (stripComment trickyLine) = ⟨some "G".toList, 1⟩ ∧
    context trickyLine = ⟨some "G".toList, 1⟩ ∧
    (trickyLine.foldl Scan.step Scan.start).mode = .comment := by
  have hline : '\n' ∉ trickyLine := by decide
  have hcode : stripComment trickyLine = "F(\"a\"\"'\", ';', G(1, ".toList := by decide
  have hcontext : context (stripComment trickyLine) = ⟨some "G".toList, 1⟩ := by decide
  obtain ⟨hsame, hstart⟩ := context_stripComment hline
  exact ⟨hline, hcode, hcontext, hsame.trans hcontext,
    (hstart trickyLine (List.prefix_refl _)).mpr (hcode ▸ by decide)⟩

end Call

end AutoItServer
