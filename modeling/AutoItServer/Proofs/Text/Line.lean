import AutoItServer.Text.Line
import AutoItServer.Proofs.Text.Boundary
import AutoItServer.Proofs.Text.Class
import Mathlib.Tactic.ByContra

/-!
The lines of a text that is put together from parts.

* `Text.lines_induction`: a text is empty, a last line without line feed, or a line with its line
  feed and a further text.
* `Text.WholeLines`: a text that ends where a line ends. `rawLines_append` says that the lines of
  such a text come before the lines of what follows it.
* `Text.Terminates`: what stands between a line and the text after it.
* `exists_lines_append` (**the first line**): the first line of a text keeps what stands before its
  end.
* `exists_cut_of_mem` (**one line**): a line cuts its text into the lines above it, itself, its
  terminator and the lines below it.
* `pairwise_numberLines`: a line ends before the next one starts.
* `strictLines_eq_map_text`: the two ways to divide a text into lines differ in a carriage return at
  its end only.
-/

namespace AutoItServer

namespace Text

variable {t x y body term rest : Text}

/-! ### Whole lines -/

/-- **Induction by lines**: the last line may lack its line feed. -/
@[elab_as_elim]
theorem lines_induction {motive : Text → Prop} (empty : motive [])
    (last : ∀ body, body ≠ [] → '\n' ∉ body → motive body)
    (line : ∀ body rest, '\n' ∉ body → motive rest → motive (body ++ '\n' :: rest)) (t : Text) :
    motive t := by
  -- the characters read since the last line feed are kept in front of the text
  suffices h : ∀ body, '\n' ∉ body → motive (body ++ t) from h [] (by simp)
  induction t with
  | nil =>
    intro body hbody
    rw [List.append_nil]
    by_cases hne : body = []
    · exact hne ▸ empty
    · exact last body hne hbody
  | cons c t ih =>
    intro body hbody
    by_cases hc : c = '\n'
    · subst hc
      exact line body t hbody (ih [] (by simp))
    · have happend : body ++ c :: t = (body ++ [c]) ++ t := by simp
      rw [happend]
      exact ih (body ++ [c]) (by simp [hbody, Ne.symm hc])

/-- A text of whole lines is empty or ends in a line feed. -/
def WholeLines (t : Text) : Prop :=
  ∀ c, t.getLast? = some c → c = '\n'

lemma wholeLines_nil : WholeLines [] := nofun

lemma wholeLines_lf (body : Text) : WholeLines (body ++ ['\n']) := by
  intro c hc
  rw [List.getLast?_concat] at hc
  exact (Option.some.inj hc).symm

lemma WholeLines.append (hx : WholeLines x) (hy : WholeLines y) : WholeLines (x ++ y) := by
  intro c hc
  rw [List.getLast?_append, Option.or_eq_some_iff] at hc
  rcases hc with hc | ⟨-, hc⟩
  · exact hy c hc
  · exact hx c hc

/-- The end of whole lines is whole lines. -/
lemma WholeLines.right (h : WholeLines (x ++ y)) : WholeLines y := by
  intro c hc
  exact h c (by rw [List.getLast?_append, hc, Option.some_or])

/-- A text without line feed is no line of its own. -/
lemma WholeLines.eq_nil (h : WholeLines x) (hx : '\n' ∉ x) : x = [] := by
  by_contra hne
  have hlast := h _ (List.getLast?_eq_some_getLast hne)
  exact hx (hlast ▸ List.getLast_mem hne)

/-- Whole lines have a first line. -/
lemma WholeLines.exists_lf (h : WholeLines x) (hne : x ≠ []) :
    ∃ body rest, x = body ++ '\n' :: rest ∧ '\n' ∉ body ∧ WholeLines rest := by
  have hlf : '\n' ∈ x := by
    by_contra hx
    exact hne (h.eq_nil hx)
  obtain ⟨body, rest, rfl, hbody⟩ := List.eq_append_cons_of_mem hlf
  exact ⟨body, rest, rfl, hbody, WholeLines.right (x := body ++ ['\n']) (by simpa using h)⟩

/-! ### Raw lines -/

/-- A text without line feed is one line. -/
lemma rawLines_of_lf_not_mem (h : '\n' ∉ t) (hne : t ≠ []) : rawLines t = [t] := by
  induction t with
  | nil => exact absurd rfl hne
  | cons c t ih =>
    obtain ⟨hc, ht⟩ := not_or.mp (mt List.mem_cons.mpr h)
    rw [rawLines, if_neg (Ne.symm hc)]
    by_cases hnil : t = []
    · subst hnil
      rfl
    · rw [ih ht hnil]

/-- The first line feed ends the first line. -/
lemma rawLines_lf (h : '\n' ∉ body) (rest : Text) :
    rawLines (body ++ '\n' :: rest) = (body ++ ['\n']) :: rawLines rest := by
  induction body with
  | nil => rfl
  | cons c body ih =>
    obtain ⟨hc, hbody⟩ := not_or.mp (mt List.mem_cons.mpr h)
    rw [List.cons_append, rawLines, if_neg (Ne.symm hc), ih hbody]
    rfl

/-- **The lines of two parts**, where the first part ends with a line. -/
lemma rawLines_append (hx : WholeLines x) (y : Text) :
    rawLines (x ++ y) = rawLines x ++ rawLines y := by
  induction x using lines_induction with
  | empty => rfl
  | last body hne hbody => exact absurd (hx.eq_nil hbody) hne
  | line body rest hbody ih =>
    have hrest : WholeLines rest := WholeLines.right (x := body ++ ['\n']) (by simpa using hx)
    rw [List.append_assoc, List.cons_append, rawLines_lf hbody, rawLines_lf hbody, ih hrest]
    rfl

/-! ### Numbered lines -/

lemma numberLines_append (i o : Nat) (xs ys : List Text) :
    numberLines i o (xs ++ ys) =
      numberLines i o xs ++ numberLines (i + xs.length) (o + byteLength xs.flatten) ys := by
  induction xs generalizing i o with
  | nil => rfl
  | cons raw xs ih =>
    rw [List.cons_append, numberLines, ih, numberLines, List.cons_append, List.length_cons,
      List.flatten_cons, byteLength_append, Nat.add_assoc i 1, Nat.add_comm 1, Nat.add_assoc o]

@[simp] lemma length_numberLines (i o : Nat) (raws : List Text) :
    (numberLines i o raws).length = raws.length := by
  induction raws generalizing i o with
  | nil => rfl
  | cons raw raws ih => rw [numberLines, List.length_cons, List.length_cons, ih]

/-- The texts of numbered lines. -/
lemma map_text_numberLines (i o : Nat) (raws : List Text) :
    (numberLines i o raws).map Line.text = raws.map dropTerminator := by
  induction raws generalizing i o with
  | nil => rfl
  | cons raw raws ih => rw [numberLines, List.map_cons, ih, List.map_cons]

/-- Lines are numbered one after another. -/
lemma index_of_numberLines {i o : Nat} {raws : List Text} {l : Line} {ls ms : List Line}
    (h : numberLines i o raws = ls ++ l :: ms) : l.index = i + ls.length := by
  induction ls generalizing i o raws with
  | nil =>
    cases raws with
    | nil => cases h
    | cons raw raws =>
      obtain ⟨rfl, -⟩ := List.cons.inj h
      rfl
  | cons m ls ih =>
    cases raws with
    | nil => cases h
    | cons raw raws =>
      rw [ih (List.cons.inj h).2, List.length_cons]
      omega

/-- The index of a line is its place among the lines. -/
lemma getElem?_lines_of_mem {l : Line} (h : l ∈ lines t) : (lines t)[l.index]? = some l := by
  obtain ⟨above, below, hlines⟩ := List.append_of_mem h
  rw [hlines, index_of_numberLines hlines, Nat.zero_add,
    List.getElem?_append_right (Nat.le_refl _), Nat.sub_self]
  rfl

lemma pairwise_index_numberLines (i o : Nat) (raws : List Text) :
    (numberLines i o raws).Pairwise fun l m => l.index < m.index := by
  induction raws generalizing i o with
  | nil => exact .nil
  | cons raw raws ih =>
    rw [numberLines, List.pairwise_cons]
    refine ⟨fun m hm => ?_, ih _ _⟩
    obtain ⟨above, below, hlines⟩ := List.append_of_mem hm
    rw [index_of_numberLines hlines]
    dsimp only
    omega

/-- The lines of two parts, where the first part ends with a line. -/
lemma lines_append (hx : WholeLines x) (y : Text) :
    lines (x ++ y) = lines x ++ numberLines (lines x).length (byteLength x) (rawLines y) := by
  rw [lines, rawLines_append hx, numberLines_append, Nat.zero_add, Nat.zero_add, rawLines_flatten,
    lines, length_numberLines]

/-! ### Terminators -/

/-- What stands between a line and the text that follows it. The last line may have no terminator,
or a carriage return alone. -/
inductive Terminates : Text → Text → Prop where
  | lf (rest : Text) : Terminates ['\n'] rest
  | crlf (rest : Text) : Terminates ['\r', '\n'] rest
  | cr : Terminates ['\r'] []
  | none : Terminates [] []

/-- A terminator is blank. -/
lemma Terminates.isBlank (h : Terminates term rest) : term.all isBlank := by
  cases h <;> decide

/-- Only the last line has no terminator. -/
lemma Terminates.rest_eq_nil (h : Terminates [] rest) : rest = [] := by
  cases h
  rfl

/-- A terminator stays one when the text after it is cut off. -/
lemma Terminates.takeBytes (h : Terminates term rest) (n : Nat) :
    Terminates term (takeBytes n rest) := by
  cases h with
  | lf => exact .lf _
  | crlf => exact .crlf _
  | cr => exact .cr
  | none => exact .none

/-- The lines of a text that starts with one line. Nothing followed by nothing is no line. -/
lemma rawLines_terminated (hbody : '\n' ∉ body) (h : Terminates term rest) :
    rawLines (body ++ (term ++ rest)) =
      (if body ++ term = [] then [] else [body ++ term]) ++ rawLines rest := by
  cases h with
  | lf =>
    rw [if_neg (by simp)]
    exact rawLines_lf hbody rest
  | crlf =>
    have hcr : '\n' ∉ body ++ ['\r'] := by simp [hbody]
    rw [if_neg (by simp)]
    simpa using rawLines_lf hcr rest
  | cr =>
    rw [if_neg (by simp), List.append_nil]
    exact rawLines_of_lf_not_mem (by simp [hbody]) (by simp)
  | none =>
    rw [List.append_nil, List.append_nil]
    split_ifs with hnil
    · rw [hnil]
      rfl
    · exact rawLines_of_lf_not_mem hbody hnil

/-- Either a character is dropped at the end, or the text stays. -/
lemma dropLastIf_spec (c : Char) (t : Text) :
    t = dropLastIf c t ++ [c] ∨ dropLastIf c t = t := by
  rw [dropLastIf]
  split_ifs with h
  · obtain ⟨s, rfl⟩ := List.getLast?_eq_some_iff.mp h
    exact Or.inl (by rw [List.dropLast_concat])
  · exact Or.inr rfl

lemma dropLastIf_append_cons (c d : Char) (x y : Text) :
    dropLastIf c (x ++ d :: y) = x ++ dropLastIf c (d :: y) := by
  have hlast : (x ++ d :: y).getLast? = (d :: y).getLast? := by
    rw [List.getLast?_append, List.getLast?_cons, Option.some_or]
  rw [dropLastIf, dropLastIf, hlast]
  split_ifs
  · exact List.dropLast_append_of_ne_nil (List.cons_ne_nil d y)
  · rfl

/-- Text before another character is not dropped. -/
lemma exists_dropLastIf_append {c d : Char} (hne : d ≠ c) (x y : Text) :
    ∃ r, dropLastIf c (x ++ d :: y) = x ++ d :: r := by
  rw [dropLastIf_append_cons]
  rcases dropLastIf_spec c (d :: y) with h | h
  · cases hdrop : dropLastIf c (d :: y) with
    | nil =>
      rw [hdrop] at h
      exact absurd (List.cons.inj h).1 hne
    | cons e r =>
      rw [hdrop] at h
      exact ⟨r, by rw [(List.cons.inj h).1]⟩
  · exact ⟨y, by rw [h]⟩

/-- What a terminator is dropped from. -/
lemma exists_dropTerminator (raw : Text) :
    ∃ w, raw = dropTerminator raw ++ w ∧ w.all isBlank := by
  rw [dropTerminator]
  rcases dropLastIf_spec '\n' raw with hlf | hlf
  · rcases dropLastIf_spec '\r' (dropLastIf '\n' raw) with hcr | hcr
    · refine ⟨['\r'] ++ ['\n'], ?_, by decide⟩
      rw [← List.append_assoc, ← hcr]
      exact hlf
    · exact ⟨['\n'], by rw [hcr]; exact hlf, by decide⟩
  · rw [hlf]
    rcases dropLastIf_spec '\r' raw with hcr | hcr
    · exact ⟨['\r'], hcr, by decide⟩
    · exact ⟨[], by rw [hcr, List.append_nil], by decide⟩

/-- The last line of a text, divided from its terminator. -/
lemma exists_terminator_last (hbody : '\n' ∉ body) :
    ∃ term, body = dropTerminator body ++ term ∧ Terminates term [] := by
  have hlf : dropLastIf '\n' body = body := by
    rcases dropLastIf_spec '\n' body with h | h
    · exact absurd (by rw [h]; simp) hbody
    · exact h
  rw [dropTerminator, hlf]
  rcases dropLastIf_spec '\r' body with h | h
  · exact ⟨['\r'], h, .cr⟩
  · exact ⟨[], by rw [h, List.append_nil], .none⟩

lemma dropLastIf_concat (c : Char) (t : Text) : dropLastIf c (t ++ [c]) = t := by
  rw [dropLastIf, if_pos List.getLast?_concat, List.dropLast_concat]

/-- A line whose last character ends no line keeps it. -/
lemma dropTerminator_concat {c : Char} (hlf : c ≠ '\n') (hcr : c ≠ '\r') (x : Text) :
    dropTerminator (x ++ [c]) = x ++ [c] := by
  have hkeep : ∀ d, c ≠ d → dropLastIf d (x ++ [c]) = x ++ [c] := by
    intro d hd
    rw [dropLastIf, List.getLast?_concat, if_neg (by simpa using hd)]
  rw [dropTerminator, hkeep _ hlf, hkeep _ hcr]

/-- **The first line** of a text keeps what stands before its end. -/
lemma exists_lines_append {c : Char} (hx : '\n' ∉ x) (hlf : c ≠ '\n') (hcr : c ≠ '\r')
    (rest : Text) :
    ∃ r ls, lines (x ++ c :: rest) = ⟨0, 0, x ++ c :: r⟩ :: ls ∧ (rest = [] → ls = []) := by
  suffices h : ∃ y raws, rawLines (x ++ c :: rest) = (x ++ c :: y) :: raws ∧
    (rest = [] → raws = []) by
    obtain ⟨y, raws, hraws, hlast⟩ := h
    obtain ⟨y', hy'⟩ := exists_dropLastIf_append hlf x y
    obtain ⟨r, hr⟩ := exists_dropLastIf_append hcr x y'
    refine ⟨r, numberLines 1 (byteLength (x ++ c :: y)) raws, ?_, fun h => ?_⟩
    · rw [lines, hraws, numberLines, dropTerminator, hy', hr, Nat.zero_add, Nat.zero_add]
    · rw [hlast h, numberLines]
  by_cases hrest : '\n' ∈ rest
  · obtain ⟨body, more, rfl, hbody⟩ := List.eq_append_cons_of_mem hrest
    refine ⟨body ++ ['\n'], rawLines more, ?_, by simp⟩
    have hline : '\n' ∉ x ++ c :: body := by simp [hx, Ne.symm hlf, hbody]
    simpa using rawLines_lf hline more
  · exact ⟨rest, [], rawLines_of_lf_not_mem (by simp [hx, Ne.symm hlf, hrest]) (by simp),
      fun _ => rfl⟩

/-- A line with a line feed, divided from its terminator. -/
lemma exists_terminator_lf (body rest : Text) :
    ∃ term, body ++ ['\n'] = dropTerminator (body ++ ['\n']) ++ term ∧ Terminates term rest := by
  rw [dropTerminator, dropLastIf_concat]
  rcases dropLastIf_spec '\r' body with h | h
  · refine ⟨['\r'] ++ ['\n'], ?_, .crlf rest⟩
    rw [← List.append_assoc, ← h]
  · exact ⟨['\n'], by rw [h], .lf rest⟩

/-! ### Lines that keep a last carriage return -/

lemma strictLines_append (hx : WholeLines x) (y : Text) :
    strictLines (x ++ y) = strictLines x ++ strictLines y := by
  rw [strictLines, rawLines_append hx, List.map_append, strictLines, strictLines]

lemma strictLines_lf (hbody : '\n' ∉ body) (rest : Text) :
    strictLines (body ++ '\n' :: rest) = dropLastIf '\r' body :: strictLines rest := by
  rw [strictLines, rawLines_lf hbody, List.map_cons, if_pos List.getLast?_concat, dropTerminator,
    dropLastIf_concat, strictLines]

lemma strictLines_of_lf_not_mem (h : '\n' ∉ t) (hne : t ≠ []) : strictLines t = [t] := by
  rw [strictLines, rawLines_of_lf_not_mem h hne, List.map_singleton, if_neg]
  exact fun hlast => h (List.mem_of_getLast? hlast)

/-- **Without a carriage return at its end** a text has the same lines either way. -/
lemma strictLines_eq_map_text (h : t.getLast? ≠ some '\r') :
    strictLines t = (lines t).map Line.text := by
  rw [lines, map_text_numberLines]
  induction t using lines_induction with
  | empty => rfl
  | last body hne hbody =>
    have hlf : body.getLast? ≠ some '\n' := fun hlast => hbody (List.mem_of_getLast? hlast)
    rw [strictLines_of_lf_not_mem hbody hne, rawLines_of_lf_not_mem hbody hne, List.map_singleton,
      dropTerminator, dropLastIf.eq_def '\n', if_neg hlf, dropLastIf, if_neg h]
  | line body rest hbody ih =>
    rw [strictLines_lf hbody, rawLines_lf hbody, List.map_cons, dropTerminator,
      dropLastIf_concat, ih]
    intro hrest
    rw [List.getLast?_append, List.getLast?_cons, hrest] at h
    exact h rfl

/-! ### One line of a text -/

/-- **One line** cuts its text into the lines above it, itself, its terminator and what follows. -/
lemma exists_cut_of_mem {i o : Nat} {l : Line} (h : l ∈ numberLines i o (rawLines t)) :
    ∃ above term rest, t = above ++ (l.text ++ (term ++ rest)) ∧ WholeLines above ∧ '\n' ∉ l.text ∧
      Terminates term rest ∧ l.text ++ term ≠ [] ∧ dropTerminator (l.text ++ term) = l.text ∧
      l.index = i + (rawLines above).length ∧ l.offset = o + byteLength above := by
  induction t using lines_induction generalizing i o with
  | empty => cases h
  | last body hne hbody =>
    rw [rawLines_of_lf_not_mem hbody hne] at h
    obtain rfl := List.mem_singleton.mp h
    obtain ⟨term, hterm, hends⟩ := exists_terminator_last hbody
    refine ⟨[], term, [], ?_, wholeLines_nil, ?_, hends, ?_, ?_, rfl, rfl⟩
    · rw [List.append_nil, List.nil_append]
      exact hterm
    · intro hlf
      exact hbody (hterm ▸ List.mem_append_left term hlf)
    · exact hterm ▸ hne
    · exact congrArg dropTerminator hterm.symm
  | line body rest hbody ih =>
    rw [rawLines_lf hbody, numberLines] at h
    rcases List.mem_cons.mp h with rfl | h
    · obtain ⟨term, hterm, hends⟩ := exists_terminator_lf body rest
      refine ⟨[], term, rest, ?_, wholeLines_nil, ?_, hends, by simp [← hterm],
        congrArg dropTerminator hterm.symm, rfl, rfl⟩
      · dsimp only
        rw [List.nil_append, ← List.append_assoc, ← hterm, List.append_cons]
      · intro hlf
        rw [dropTerminator, dropLastIf_concat] at hlf
        rcases dropLastIf_spec '\r' body with hcr | hcr
        · exact hbody (hcr ▸ List.mem_append_left ['\r'] hlf)
        · exact hbody (hcr ▸ hlf)
    · obtain ⟨above, term, rest', rfl, habove, hlf, hends, hne, hdrop, hindex, hoffset⟩ := ih h
      have hbelow := rawLines_append (wholeLines_lf body) above
      rw [rawLines_lf hbody []] at hbelow
      refine ⟨body ++ ['\n'] ++ above, term, rest', ?_,
        (wholeLines_lf body).append habove, hlf, hends, hne, hdrop, ?_, ?_⟩
      · rw [List.append_assoc, List.append_assoc]
        rfl
      · rw [hindex, hbelow, List.length_append, List.length_cons]
        simp only [rawLines, List.length_nil]
        omega
      · simp only [hoffset, byteLength_append, Nat.add_assoc]

/-- The lines from an offset on start no earlier than there. -/
lemma le_offset_of_mem {i o : Nat} {l : Line} (h : l ∈ numberLines i o (rawLines t)) :
    o ≤ l.offset := by
  obtain ⟨above, -, -, -, -, -, -, -, -, -, hoffset⟩ := exists_cut_of_mem h
  omega

/-- A line ends before the next one starts. -/
lemma pairwise_numberLines (i o : Nat) (t : Text) :
    (numberLines i o (rawLines t)).Pairwise fun l m => l.offset + byteLength l.text < m.offset := by
  induction t using lines_induction generalizing i o with
  | empty => exact .nil
  | last body hne hbody =>
    rw [rawLines_of_lf_not_mem hbody hne]
    exact List.pairwise_singleton _ _
  | line body rest hbody ih =>
    rw [rawLines_lf hbody, numberLines, List.pairwise_cons]
    refine ⟨fun m hm => ?_, ih _ _⟩
    have hnext := le_offset_of_mem hm
    have hshort : byteLength (dropTerminator (body ++ ['\n'])) ≤ byteLength body := by
      rw [dropTerminator, dropLastIf_concat]
      rcases dropLastIf_spec '\r' body with h | h
      · rw [h, dropLastIf_concat, byteLength_append]
        omega
      · exact Nat.le_of_eq (congrArg byteLength h)
    have hsize := Char.utf8Size_pos '\n'
    simp only [byteLength_append, byteLength_cons] at hnext
    dsimp only
    omega

/-- Lines above a line start before it, and lines below it start later. -/
lemma offset_lt_of_lines {l : Line} {above below : List Line} (h : lines t = above ++ l :: below) :
    (∀ x ∈ above, x.offset < l.offset) ∧ ∀ x ∈ below, l.offset < x.offset := by
  have hpairwise := pairwise_numberLines 0 0 t
  rw [← lines, h, List.pairwise_append, List.pairwise_cons] at hpairwise
  obtain ⟨-, ⟨hbelow, -⟩, habove⟩ := hpairwise
  refine ⟨fun x hx => ?_, fun x hx => ?_⟩
  · have := habove x hx l List.mem_cons_self
    omega
  · have := hbelow x hx
    omega

/-- A line is known by its offset. -/
lemma above_eq_of_offset_eq {l m : Line} {above above' below below' : List Line}
    (h : lines t = above ++ l :: below) (h' : lines t = above' ++ m :: below')
    (hoffset : l.offset = m.offset) : above = above' := by
  rcases List.append_eq_append_iff.mp (h.symm.trans h') with ⟨between, rfl, hl⟩ | ⟨between, rfl, hm⟩
  · cases between with
    | nil => exact (List.append_nil _).symm
    | cons x between =>
      obtain ⟨rfl, -⟩ := List.cons.inj hl
      have := (offset_lt_of_lines h').1 l (by simp)
      omega
  · cases between with
    | nil => exact List.append_nil _
    | cons x between =>
      obtain ⟨rfl, -⟩ := List.cons.inj hm
      have := (offset_lt_of_lines h).1 m (by simp)
      omega

/-! ### Cutting at a line -/

/-- A beginning is taken whole, and the rest from what follows it. -/
lemma takeBytes_byteLength_add (x y : Text) (n : Nat) :
    takeBytes (byteLength x + n) (x ++ y) = x ++ takeBytes n y := by
  induction x with
  | nil => rw [byteLength_nil, Nat.zero_add, List.nil_append, List.nil_append]
  | cons c x ih =>
    rw [byteLength_cons, List.cons_append, takeBytes, if_pos (by omega), Nat.add_assoc,
      Nat.add_sub_cancel_left, ih, List.cons_append]

@[simp] lemma takeBytes_zero (t : Text) : takeBytes 0 t = [] := by
  cases t with
  | nil => rfl
  | cons c t => rw [takeBytes, if_neg (by have := c.utf8Size_pos; omega)]

lemma takeBytes_byteLength (x y : Text) : takeBytes (byteLength x) (x ++ y) = x := by
  simpa using takeBytes_byteLength_add x y 0

lemma dropBytes_byteLength (x y : Text) : dropBytes (byteLength x) (x ++ y) = y := by
  have h := takeBytes_append_dropBytes (byteLength x) (x ++ y)
  rw [takeBytes_byteLength] at h
  exact List.append_cancel_left h

/-- The text from a line on starts with it. -/
lemma exists_dropBytes_of_mem {l : Line} (h : l ∈ lines t) :
    ∃ term rest, dropBytes l.offset t = l.text ++ (term ++ rest) ∧ '\n' ∉ l.text ∧
      Terminates term rest := by
  obtain ⟨above, term, rest, rfl, -, hline, hends, -, -, -, hoffset⟩ := exists_cut_of_mem h
  rw [Nat.zero_add] at hoffset
  exact ⟨term, rest, by rw [hoffset, dropBytes_byteLength], hline, hends⟩

/-- **Between two lines** there are whole lines, and at least one. -/
lemma exists_between_of_mem {l m : Line} (hl : l ∈ lines t) (hm : m ∈ lines t)
    (hlt : l.offset < m.offset) :
    ∃ x, dropBytes l.offset t = x ++ dropBytes m.offset t ∧ WholeLines x ∧ x ≠ [] ∧
      m.offset = l.offset + byteLength x := by
  obtain ⟨above, term, rest, htext, -, -, -, -, -, -, hoffset⟩ := exists_cut_of_mem hl
  obtain ⟨above', term', rest', htext', hwhole, -, -, -, -, -, hoffset'⟩ := exists_cut_of_mem hm
  rw [Nat.zero_add] at hoffset hoffset'
  have hfrom : dropBytes l.offset t = l.text ++ (term ++ rest) := by
    rw [hoffset, htext, dropBytes_byteLength]
  have hfrom' : dropBytes m.offset t = m.text ++ (term' ++ rest') := by
    rw [hoffset', htext', dropBytes_byteLength]
  rcases List.append_eq_append_iff.mp (htext ▸ htext') with ⟨x, rfl, hx⟩ | ⟨x, rfl, -⟩
  · rw [byteLength_append] at hoffset'
    refine ⟨x, by rw [hfrom, hfrom', hx], hwhole.right, ?_, by rw [hoffset', hoffset]⟩
    rintro rfl
    rw [byteLength_nil] at hoffset'
    omega
  · rw [byteLength_append] at hoffset
    omega

end Text

end AutoItServer
