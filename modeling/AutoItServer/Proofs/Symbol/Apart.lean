import AutoItServer.Proofs.Symbol.Extent
import AutoItServer.Proofs.Symbol.Outline
import AutoItServer.Proofs.Text.Case

/-!
The functions of an outline do not overlap, unless a `Volatile` header is passed over.

A function is listed for each of its headers, plain or `Volatile`, and its extent ends with the next
`EndFunc`, provided that no further header stands before it. This second search knows plain headers
only.

* `head?_cases`: a header is `Volatile`, or it is plain and then known to the second search
  (`headerHere_of_isPlain`).
* `stop_cases` (**two functions**): the first ends before the second starts, or it goes on to the
  end of the second, which then is `Volatile`.
* `functions_apart`: this for all functions of an outline.
-/

namespace AutoItServer

namespace FunctionDef

variable {line name params : Text}

/-! ### Headers -/

/-- A line that starts with the word `Volatile`. -/
def isVolatile (line : Text) : Bool :=
  (Text.afterFolded? "volatile".toList (line.dropWhile isIndent)).isSome

/-- A line that starts with `Func`, tabs or spaces, and a word. -/
def IsPlain (line : Text) : Prop :=
  ∃ b after w ws, Text.afterFolded? "func".toList (line.dropWhile isIndent) = some (b :: after) ∧
    isIndent b ∧ after.dropWhile isIndent = w :: ws ∧ isWord w

/-- A header is `Volatile` or plain. -/
lemma head?_cases (h : head? line = some (name, params)) : isVolatile line ∨ IsPlain line := by
  cases hvolatile : Text.afterFolded? "volatile".toList (line.dropWhile isIndent) with
  | some rest => exact Or.inl (by rw [isVolatile, hvolatile]; rfl)
  | none =>
    simp only [head?, hvolatile, Option.bind_none, Option.getD_none] at h
    obtain ⟨rest, hrest, h⟩ := Option.bind_eq_some_iff.mp h
    obtain ⟨after, hafter, hindent⟩ := Option.bind_eq_some_iff.mp hrest
    cases after with
    | nil => cases hindent
    | cons b after =>
      rw [afterIndent?] at hindent
      split_ifs at hindent with hb
      obtain rfl := Option.some.inj hindent
      refine Or.inr ⟨b, after, ?_⟩
      cases hword : after.dropWhile isIndent with
      | nil =>
        rw [hword] at h
        cases h
      | cons w ws =>
        refine ⟨w, ws, hafter, hb, rfl, ?_⟩
        by_contra hw
        rw [hword, List.takeWhile_cons_of_neg hw] at h
        cases h

/-- A plain header is a header for the search for ends too, whatever follows the line. -/
lemma headerHere_of_isPlain (h : IsPlain line) (z : Text) : Extent.headerHere (line ++ z) := by
  obtain ⟨b, after, w, ws, hfunc, hb, hword, hw⟩ := h
  have hne : line.dropWhile isIndent ≠ [] := by
    intro hnil
    rw [hnil] at hfunc
    cases hfunc
  have hdrop : (line ++ z).dropWhile isIndent = line.dropWhile isIndent ++ z := by
    rw [List.dropWhile_append, if_neg (by simpa using hne)]
  have hblanks : ∀ c ∈ after.takeWhile isIndent, isBlank c := fun c hc =>
    isBlank_of_isIndent (List.mem_takeWhile_imp hc)
  have htrim : Text.trimStart (after ++ z) = w :: (ws ++ z) := by
    rw [← List.takeWhile_append_dropWhile (p := isIndent) (l := after), hword, Text.trimStart,
      List.append_assoc, List.dropWhile_append_of_pos hblanks, List.cons_append,
      List.dropWhile_cons_of_neg (not_isBlank_of_isWord hw)]
  rw [Extent.headerHere, hdrop, Text.afterFolded?_append_of_some hfunc z]
  simp only [List.cons_append]
  rw [isBlank_of_isIndent hb, htrim]
  exact hw

/-- A header is no end. -/
lemma endFuncHere?_of_head (h : head? line = some (name, params)) :
    Extent.endFuncHere? line = none := by
  have hnone : Text.afterFolded? "endfunc".toList (line.dropWhile isIndent) = none := by
    rcases head?_cases h with hvolatile | ⟨b, after, w, ws, hfunc, -⟩
    · exact Text.afterFolded?_eq_none (k := 'v') (by decide) hvolatile
    · exact Text.afterFolded?_eq_none (k := 'f') (by decide) (Option.isSome_of_eq_some hfunc)
  rw [Extent.endFuncHere?, hnone]

end FunctionDef

namespace Outline

open AutoItServer.Text (byteLength takeBytes dropBytes WholeLines Terminates)
open AutoItServer.Extent (endFunc? hasHeader length?)

variable {t : Text} {l m : Line} {f g : Symbol}

/-! ### Two functions -/

/-- A function whose plain header starts a text is not passed over up to its end. -/
lemma hasHeader_of_isPlain {line term rest : Text} (hplain : FunctionDef.IsPlain line)
    (hnone : Extent.endFuncHere? line = none) (hline : '\n' ∉ line)
    (h : Terminates term rest) {n : Nat} (hend : endFunc? true (line ++ (term ++ rest)) = some n) :
    hasHeader true (takeBytes n (line ++ (term ++ rest))) := by
  rw [Extent.endFunc?_line hline h, hnone, Option.none_or] at hend
  obtain ⟨k, -, rfl⟩ := Option.map_eq_some_iff.mp hend
  rw [← List.append_assoc, Text.takeBytes_byteLength_add, List.append_assoc,
    Extent.hasHeader_eq_someLine]
  have hheader := FunctionDef.headerHere_of_isPlain hplain (term ++ takeBytes k rest)
  cases hcons : line ++ (term ++ takeBytes k rest) with
  | nil =>
    rw [hcons] at hheader
    cases hheader
  | cons c cs =>
    rw [hcons] at hheader
    rw [Extent.someLine, hheader]
    rfl

/-- **Two functions**: the first ends before the second starts, or both end together and the second
is `Volatile`. -/
lemma stop_cases (hl : l ∈ Text.lines t) (hm : m ∈ Text.lines t) (hlt : l.offset < m.offset)
    (hf : Defines t l f) (hg : Defines t m g) :
    f.stop ≤ g.start ∨ f.stop = g.stop ∧ FunctionDef.isVolatile m.text := by
  obtain ⟨x, hx, hwhole, hne, hoffset⟩ := Text.exists_between_of_mem hl hm hlt
  obtain ⟨nf, hnf, hfstop⟩ := hf.extent
  obtain ⟨ng, hng, hgstop⟩ := hg.extent
  rw [hx] at hnf
  cases hend : endFunc? true x with
  | some n =>
    -- the end of the first function stands before the second
    rw [Extent.length?_append_of_some hwhole hend] at hnf
    have hle := Extent.endFunc?_le (Extent.length?_eq_some_iff.mp hnf).1
    refine Or.inl ?_
    rw [hfstop, hg.start, hoffset]
    omega
  | none =>
    obtain ⟨body, rest, rfl, hbody, hrest⟩ := hwhole.exists_lf hne
    obtain ⟨n, hn, rfl, hheader⟩ := (Extent.length?_append_of_none hbody hrest hend _).mp hnf
    have hngend := (Extent.length?_eq_some_iff.mp hng).1
    obtain rfl : n = ng := Option.some.inj (hn.symm.trans hngend)
    refine Or.inr ⟨by rw [hfstop, hgstop, hoffset, Nat.add_assoc], ?_⟩
    obtain ⟨params, hhead⟩ := hg.head
    refine (FunctionDef.head?_cases hhead).resolve_right fun hplain => ?_
    -- a plain header in between would leave the first function without an end
    obtain ⟨term, below, htext, hline, hends⟩ := Text.exists_dropBytes_of_mem hm
    rw [htext] at hn hheader
    have hhere := hasHeader_of_isPlain hplain
      (FunctionDef.endFuncHere?_of_head hhead) hline hends hn
    rw [Extent.hasHeader_eq_someLine] at hhere hheader
    rw [Extent.someLine_append_right hrest hhere] at hheader
    cases hheader

/-- A relation between lines passes over to what stands for them. -/
lemma pairwise_of_defines {R : Line → Line → Prop} {S : Symbol → Symbol → Prop}
    {headers : List Line}
    {fs : List Symbol} (h : List.Forall₂ (Defines t) headers fs) (hR : headers.Pairwise R)
    (hS : ∀ l m f g, R l m → Defines t l f → Defines t m g → S f g) : fs.Pairwise S := by
  induction h with
  | nil => exact .nil
  | cons hdefines hrest ih =>
    obtain ⟨hhead, hpairwise⟩ := List.pairwise_cons.mp hR
    refine List.pairwise_cons.mpr ⟨fun g hg => ?_, ih hpairwise⟩
    obtain ⟨m, hm, hmg⟩ := exists_defines_of_mem hrest hg
    exact hS _ m _ g (hhead m hm) hdefines hmg

/-- **Functions do not overlap**, with one exception. The functions of an outline come in the order
of their headers, and each ends before the next ones start; only a function that starts with
`Volatile` may stand inside another one, and then both end together. -/
theorem functions_apart (options : SymbolOptions) (t : Text) :
    (functionsOf (symbols options t)).Pairwise fun f g =>
      f.start < g.start ∧ (f.stop ≤ g.start ∨ f.stop = g.stop ∧
        ∃ l ∈ Source.codeLines t, l.offset = g.start ∧ FunctionDef.isVolatile l.text) := by
  obtain ⟨headers, hsub, hdefines⟩ := functions_symbols options t
  have hlines : (Source.codeLines t).Sublist (Text.lines t) := Source.visibleFrom_sublist 0 _
  have hpairwise := (Text.pairwise_numberLines 0 0 t).sublist (hsub.trans hlines)
  refine pairwise_of_defines hdefines (List.Pairwise.and_mem.mp hpairwise) ?_
  rintro l m f g ⟨hl, hm, hafter⟩ hf hg
  have hlt : l.offset < m.offset := by omega
  refine ⟨by rw [hf.start, hg.start]; exact hlt, ?_⟩
  refine (stop_cases (hlines.mem (hsub.mem hl)) (hlines.mem (hsub.mem hm)) hlt hf hg).imp_right ?_
  rintro ⟨hstop, hvolatile⟩
  exact ⟨hstop, m, hsub.mem hm, hg.start.symm, hvolatile⟩

/-- A `Volatile` function inside another one. -/
theorem functions_nested :
    ¬ (functionsOf (symbols ⟨true, true, 50000⟩
      "Func A()\nVolatile Func B()\nEndFunc".toList)).Pairwise
      fun f g => f.stop ≤ g.start ∨ g.stop ≤ f.start := by
  decide +kernel

end Outline

end AutoItServer
