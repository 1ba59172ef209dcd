import AutoItServer.Proofs.Function.Reader
import AutoItServer.Proofs.Source.Literal

/-!
Definitions as they are written.

* `FunctionDef.parensAfter`, `FunctionDef.StaysOpen`: the parentheses that are open behind a text.
* `FunctionDef.piece_outside`: a piece of a parameter list whose strings are complete is read as it
  stands.
* `FunctionDef.opening`, `FunctionDef.oneLine`: the start of a definition, and a definition on one
  line.
* `State.read_opening`: the start of a definition is seen where it stands, whatever follows it.
* `FunctionDef.exists_findAll_oneLine` (**a written definition**) is found first, with its parameter
  list.
-/

namespace AutoItServer

namespace FunctionDef

open AutoItServer.Source
  (hides Outside Scanner Balanced Encloses depthStep isQuote_iff quoteAfter outside_of_plain)

variable {name params t s rest : Text} {depth : Nat}

/-! ### Pieces of a list -/

/-- The reader of a list stops at a comment, and at the parenthesis that closes the list. -/
def pieceScanner : Scanner Nat Piece where
  scan := piece
  copy c p := { p with text := c :: p.text }
  next := depthStep (· == '(') (· == ')')
  reads d c := c ≠ ';' ∧ (c = ')' → 0 < d)
  inside _ _ _ _ := rfl
  quote _ _ _ hq := by rcases isQuote_iff.mp hq with rfl | rfl <;> rfl
  char c d cs hc h := by
    obtain ⟨hcomment, hclose⟩ := h
    by_cases hparen : c = ')'
    · subst hparen
      simp [piece, quoteAfter, hc, depthStep, (hclose rfl).ne']
    · simp [piece, quoteAfter, hc, hcomment, hparen, depthStep]

/-- A piece with more text before it. -/
def Piece.behind (t : Text) (p : Piece) : Piece :=
  { p with text := t ++ p.text }

lemma foldr_copy (t : Text) (p : Piece) : t.foldr pieceScanner.copy p = p.behind t := by
  induction t with
  | nil => rfl
  | cons c t ih =>
    rw [List.foldr_cons, ih]
    rfl

/-- The parentheses that are open behind a text. -/
def parensAfter (depth : Nat) (s : Text) : Nat :=
  s.foldl (depthStep (· == '(') (· == ')')) depth

/-- A text that closes no more parentheses than are open. -/
def StaysOpen (depth : Nat) (s : Text) : Prop :=
  Encloses (· == '(') (· == ')') depth s

/-- No character opens a parenthesis and closes one. -/
lemma parens_apart (c : Char) (h : c == '(') : (c == ')') = false := by
  rw [beq_iff_eq] at h
  subst h
  rfl

/-- **A piece with complete strings** is read as it stands, if it closes no more than what is
open. -/
lemma piece_outside (h : Outside t s) (hcomment : ';' ∉ s) (hopen : StaysOpen depth s)
    (rest : Text) :
    piece none depth (t ++ rest) = (piece none (parensAfter depth s) rest).behind t := by
  have hreads : ∀ x c y, s = x ++ c :: y →
      pieceScanner.reads (x.foldl pieceScanner.next depth) c := by
    rintro x c y rfl
    refine ⟨?_, fun hc => Encloses.pos_of_closes parens_apart hopen (by simpa using hc)⟩
    rintro rfl
    exact hcomment (List.mem_append_right x List.mem_cons_self)
  exact (pieceScanner.scan_outside h hreads rest).trans (foldr_copy t _)

/-- The parenthesis behind a list that is closed in itself ends the list. -/
lemma piece_closed (h : Outside t s) (hcomment : ';' ∉ s) (hopen : StaysOpen depth s)
    (hclosed : parensAfter depth s = 0) (rest : Text) :
    piece none depth (t ++ ')' :: rest) = ⟨t, 0, true⟩ := by
  have hend : piece none 0 (')' :: rest) = ⟨[], 0, true⟩ := rfl
  rw [piece_outside h hcomment hopen, hclosed, hend, Piece.behind, List.append_nil]

/-! ### The start of a definition -/

/-- The characters that mean something to the readers of a list. -/
def isMark (c : Char) : Bool :=
  isQuote c || c ∈ [';', ',', '(', ')', '[', ']', '\n']

lemma not_isMark_of_isWord {c : Char} (h : isWord c) : ¬ isMark c := by
  intro hmark
  simp only [isMark, Bool.or_eq_true, isQuote_iff, decide_eq_true_eq, List.mem_cons,
    List.not_mem_nil, or_false] at hmark
  rcases hmark with (rfl | rfl) | rfl | rfl | rfl | rfl | rfl | rfl | rfl
  all_goals exact absurd h (by decide)

/-- Text without marks has no strings. -/
lemma outside_of_not_isMark (h : ∀ c ∈ s, ¬ isMark c) : Outside s s := by
  refine outside_of_plain (List.any_eq_false.mpr fun c hc hquote => h c hc ?_)
  rw [isMark, hquote, Bool.true_or]

/-- The start of a definition, with the parenthesis that opens its parameter list. -/
def opening (name : Text) : Text :=
  "Func ".toList ++ (name ++ ['('])

lemma opening_append (name rest : Text) :
    opening name ++ rest = "Func ".toList ++ (name ++ '(' :: rest) := by
  show ("Func ".toList ++ (name ++ ['('])) ++ rest = _
  simp

/-- A definition on one line. -/
def oneLine (name params : Text) : Text :=
  opening name ++ (params ++ [')'])

/-- A name as the definitions have it: word characters, and at least one. -/
def IsName (name : Text) : Prop :=
  name ≠ [] ∧ ∀ c ∈ name, isWord c

lemma IsName.not_isBlank (h : IsName name) : ∀ c ∈ name, ¬ isBlank c :=
  fun c hc => not_isBlank_of_isWord (h.2 c hc)

/-- The start of a definition is a header line, whatever follows it. -/
lemma head?_opening (h : IsName name) (rest : Text) :
    head? (opening name ++ rest) = some (name, rest) := by
  have hindent : (name ++ '(' :: rest).dropWhile isIndent = name ++ '(' :: rest := by
    obtain ⟨c, cs, rfl⟩ := List.exists_cons_of_ne_nil h.1
    exact List.dropWhile_cons_of_neg fun hc =>
      h.not_isBlank c List.mem_cons_self (isBlank_of_isIndent hc)
  have hstart : (opening name ++ rest).dropWhile isIndent = opening name ++ rest := rfl
  have hvolatile : (Text.afterFolded? "volatile".toList (opening name ++ rest)).bind afterIndent? =
      none := rfl
  have hfunc : (Text.afterFolded? "func".toList (opening name ++ rest)).bind afterIndent? =
      some (name ++ '(' :: rest) := by
    rw [← hindent, opening_append]
    rfl
  have hword : (name ++ '(' :: rest).takeWhile isWord = name := by
    rw [List.takeWhile_append_of_pos h.2, List.takeWhile_cons_of_neg (by decide), List.append_nil]
  simp only [head?, hstart, hvolatile, Option.getD_none, hfunc, Option.bind_eq_bind,
    Option.bind_some, hword, List.drop_left]
  obtain ⟨c, cs, rfl⟩ := List.exists_cons_of_ne_nil h.1
  rfl

/-- **The start of a definition** is seen outside of lists and blocks. -/
lemma State.read_opening (h : IsName name) (i o : Nat) (rest : Text) :
    State.start.read ⟨i, o, opening name ++ rest⟩ =
      let p := piece none 0 rest
      let found : FunctionDef := ⟨name, p.text, i, o⟩
      some (found, afterPiece found (opening name ++ rest) p) := by
  have hvisible : hides 0 (opening name ++ rest) = false := rfl
  simp only [read, start, hvisible, Bool.false_eq_true, if_false, head?_opening h, Option.map_some]

/-- The start of a definition has only word characters beside its own. -/
lemma not_mem_opening {c : Char} (h : IsName name) (hc : c ∉ "Func ".toList ++ ['('])
    (hword : isWord c = false) :
    c ∉ opening name := by
  intro hmem
  rw [← List.append_nil (opening name), opening_append, List.mem_append, List.mem_append] at hmem
  rcases hmem with hmem | hmem | hmem
  · exact hc (List.mem_append_left _ hmem)
  · rw [h.2 c hmem] at hword
    cases hword
  · exact hc (List.mem_append_right _ hmem)

lemma outside_opening (h : IsName name) : Outside (opening name) (opening name) := by
  refine (outside_of_plain (by decide)).append (.append ?_ (outside_of_plain (by decide)))
  exact outside_of_not_isMark fun c hc => not_isMark_of_isWord (h.2 c hc)

/-- **A written definition** is found first, with its parameter list. -/
lemma exists_findAll_oneLine (hname : IsName name) (hline : '\n' ∉ params) (h : Outside params s)
    (hcomment : ';' ∉ s) (hbalanced : Balanced '(' ')' s) (rest : Text) :
    ∃ later, findAll (oneLine name params ++ rest) = ⟨name, Text.trim params, 0, 0⟩ :: later ∧
      (rest = [] → later = []) := by
  have htext : oneLine name params ++ rest = (opening name ++ params) ++ ')' :: rest := by
    simp [oneLine]
  have hlf : '\n' ∉ opening name ++ params := by
    rw [List.mem_append, not_or]
    exact ⟨not_mem_opening hname (by decide) (by decide), hline⟩
  obtain ⟨r, ls, hlines, hlast⟩ :=
    Text.exists_lines_append hlf (c := ')') (by decide) (by decide) rest
  have hpiece : piece none 0 (params ++ ')' :: r) = ⟨params, 0, true⟩ :=
    piece_closed h hcomment hbalanced.encloses (hbalanced.foldl_depthStep (by decide)) r
  have hread : State.start.read ⟨0, 0, opening name ++ params ++ ')' :: r⟩ =
      some (⟨name, params, 0, 0⟩, .looking) := by
    rw [List.append_assoc, State.read_opening hname, hpiece]
    rfl
  refine ⟨(State.start.next ⟨0, 0, opening name ++ params ++ ')' :: r⟩).find ls, ?_, fun h => ?_⟩
  · show State.start.find (Text.lines _) = _
    rw [htext, hlines, State.find_cons, State.out, hread]
    rfl
  · rw [hlast h]
    simp only [State.next, hread]
    rfl

end FunctionDef

end AutoItServer
