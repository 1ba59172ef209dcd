import AutoItServer.Call.Context
import AutoItServer.Proofs.Text.Class

/-!
The call around a cursor, for calls inside calls.

* `Quoted`, `Fragment`: the inside of a string, and text whose strings and brackets are complete,
  with the commas outside its brackets counted.
* `scan_fragment`: reading a fragment leaves the open brackets as they were, and counts its commas
  for the innermost one.
* `OpenCall`: a call whose parenthesis is still open: its name, the arguments before the cursor, and
  what stands of the last one.
* `identifierBefore_name`: the name before a parenthesis is found in the text read so far.
* `scan_call`, `scan_calls`: an open call adds a bracket of its own, and so do several, one inside
  the other.
* `context_nested` (**the innermost call**): the call at the cursor is the last one opened, with the
  number of its complete arguments, also when a string is still open.
-/

namespace AutoItServer

namespace Call

/-! ### Fragments -/

/-- The characters that begin or end a string, a bracket, an argument or a comment. -/
def marks : List Char :=
  [doubleQuote, apostrophe, '(', ')', '[', ']', ',', ';']

/-- Every other character is ordinary. -/
def isOrdinary (c : Char) : Bool :=
  !marks.contains c

/-- The mark that opens a bracket. -/
def openMark (round : Bool) : Char :=
  if round then '(' else '['

/-- The mark that closes a bracket. -/
def closeMark (round : Bool) : Char :=
  if round then ')' else ']'

/-- The inside of a string: its quote stands there only doubled. -/
inductive Quoted (q : Char) : Text → Prop where
  | nil : Quoted q []
  | char {c : Char} {t : Text} : c ≠ q → Quoted q t → Quoted q (c :: t)
  | doubled {t : Text} : Quoted q t → Quoted q (q :: q :: t)

/-- Text whose strings and brackets are complete, with the number of its commas outside brackets. -/
inductive Fragment : Nat → Text → Prop where
  | nil : Fragment 0 []
  | char {n : Nat} {c : Char} {t : Text} : isOrdinary c → Fragment n t → Fragment n (c :: t)
  | literal {n : Nat} {q : Char} {inside t : Text} : isQuote q → Quoted q inside → Fragment n t →
      Fragment n (q :: inside ++ q :: t)
  | group {n m : Nat} {inside t : Text} (round : Bool) : Fragment m inside → Fragment n t →
      Fragment n (openMark round :: inside ++ closeMark round :: t)
  | comma {n : Nat} {t : Text} : Fragment n t → Fragment (n + 1) (',' :: t)

variable {n m : Nat} {s t : Text} {c q : Char}

lemma Fragment.append (hs : Fragment n s) (ht : Fragment m t) : Fragment (n + m) (s ++ t) := by
  induction hs with
  | nil => rwa [Nat.zero_add]
  | char hc _ ih => exact .char hc ih
  | literal hq hinside _ ih =>
    rw [List.append_assoc, List.cons_append]
    exact .literal hq hinside ih
  | group round hinside _ _ ih =>
    rw [List.append_assoc, List.cons_append]
    exact .group round hinside ih
  | comma _ ih =>
    rw [Nat.succ_add]
    exact .comma ih

lemma fragment_of_ordinary (h : ∀ c ∈ t, isOrdinary c) : Fragment 0 t := by
  induction t with
  | nil => exact .nil
  | cons c t ih =>
    exact .char (h c List.mem_cons_self) (ih fun d hd => h d (List.mem_cons_of_mem c hd))

/-- Arguments with a comma after each. -/
def argumentsText (arguments : List Text) : Text :=
  arguments.flatMap (· ++ [','])

/-- Complete arguments have one comma each. -/
lemma fragment_arguments {arguments : List Text} (h : ∀ a ∈ arguments, Fragment 0 a) :
    Fragment arguments.length (argumentsText arguments) := by
  induction arguments with
  | nil => exact .nil
  | cons a arguments ih =>
    have ha : Fragment 1 (a ++ [',']) := (h a List.mem_cons_self).append (.comma .nil)
    have hrest := ih fun b hb => h b (List.mem_cons_of_mem a hb)
    rw [List.length_cons, Nat.add_comm]
    exact ha.append hrest

/-! ### Reading characters -/

namespace Scan

/-- Outside strings and comments. The quote that may close a string has been read, or none. -/
def Ready (s : Scan) : Prop :=
  s.mode = .code ∨ ∃ q, isQuote q ∧ s.mode = .closed q

/-- Every character read is kept. -/
@[simp] lemma read_step (s : Scan) (c : Char) : (s.step c).read = c :: s.read := by
  rw [step]
  split
  · rfl
  · rfl
  · rfl
  · split <;> rfl

lemma read_foldl_step (s : Scan) (t : Text) : (t.foldl step s).read = t.reverse ++ s.read := by
  induction t generalizing s with
  | nil => rfl
  | cons c t ih => rw [List.foldl_cons, ih, read_step, List.reverse_cons, List.append_assoc]; rfl

variable {s : Scan}

/-- Outside strings, a character other than a quote is read as code. -/
lemma step_of_ready (hs : s.Ready) (hc : ¬ isQuote c) : s.step c = s.stepCode c := by
  rcases hs with hmode | ⟨q, hq, hmode⟩
  · rw [step, hmode]
  · have hne : c ≠ q := by
      rintro rfl
      exact hc hq
    rw [step, hmode]
    exact if_neg hne

lemma ready_stepCode (hc : ¬ isQuote c) (hsemicolon : c ≠ ';') : (s.stepCode c).Ready := by
  refine Or.inl ?_
  rw [stepCode, if_neg hc, if_neg hsemicolon]

lemma bracketsAfter_of_isOrdinary (hc : isOrdinary c) : s.bracketsAfter c = s.brackets := by
  unfold bracketsAfter
  split
  case h_6 => rfl
  all_goals exact absurd hc (by decide)

lemma step_ordinary (hs : s.Ready) (hc : isOrdinary c) :
    (s.step c).Ready ∧ (s.step c).brackets = s.brackets ∧
      (s.step c).last = if isBlank c then s.last else some c := by
  have hquote : ¬ isQuote c := by
    intro hq
    rw [isQuote, Bool.or_eq_true, beq_iff_eq, beq_iff_eq] at hq
    rcases hq with rfl | rfl <;> exact absurd hc (by decide)
  have hsemicolon : c ≠ ';' := by
    rintro rfl
    exact absurd hc (by decide)
  rw [step_of_ready hs hquote]
  exact ⟨ready_stepCode hquote hsemicolon, bracketsAfter_of_isOrdinary hc, rfl⟩

/-- A quote opens a string, also right after another string. -/
lemma step_quote (hs : s.Ready) (hq : isQuote q) :
    (s.step q).mode = .string q ∧ (s.step q).brackets = s.brackets := by
  have hcode : (s.stepCode q).mode = .string q ∧ (s.stepCode q).brackets = s.brackets := by
    refine ⟨by rw [stepCode, if_pos hq], ?_⟩
    show s.bracketsAfter q = s.brackets
    rw [isQuote, Bool.or_eq_true, beq_iff_eq, beq_iff_eq] at hq
    rcases hq with rfl | rfl <;> rfl
  rcases hs with hmode | ⟨r, -, hmode⟩
  · rwa [step, hmode]
  · rw [step, hmode]
    dsimp only
    split
    · rename_i hr
      exact ⟨congrArg Mode.string hr.symm, rfl⟩
    · exact hcode

/-! ### Reading fragments -/

/-- A string goes on through its inside. -/
lemma scan_quoted {inside : Text} (hs : s.mode = .string q) (hinside : Quoted q inside) :
    (inside.foldl step s).mode = .string q ∧ (inside.foldl step s).brackets = s.brackets := by
  induction hinside generalizing s with
  | nil => exact ⟨hs, rfl⟩
  | char hc _ ih =>
    rw [List.foldl_cons, step, hs]
    exact ih (if_neg hc)
  | doubled _ ih =>
    have hclosed : s.step q = { s with mode := .closed q, read := q :: s.read } := by
      rw [step, hs]
      exact congrArg (fun mode => { s with mode, read := q :: s.read }) (if_pos rfl)
    rw [List.foldl_cons, List.foldl_cons, hclosed, step]
    dsimp only
    rw [if_pos rfl]
    exact ih rfl

/-- Brackets with more commas read in the innermost one. -/
def tally (n : Nat) : List Bracket → List Bracket
  | [] => []
  | b :: bs => { b with commas := b.commas + n } :: bs

@[simp] lemma tally_zero (bs : List Bracket) : tally 0 bs = bs := by
  cases bs <;> rfl

lemma tally_tally (n m : Nat) (bs : List Bracket) : tally n (tally m bs) = tally (n + m) bs := by
  cases bs with
  | nil => rfl
  | cons b bs => simp only [tally, Nat.add_assoc, Nat.add_comm n m]

/-- An opening mark adds a bracket without commas. -/
lemma step_openMark (hs : s.Ready) (round : Bool) :
    (s.step (openMark round)).Ready ∧
      ∃ f, (s.step (openMark round)).brackets = ⟨round, f, 0⟩ :: s.brackets := by
  cases round with
  | true =>
    rw [openMark, if_pos rfl, step_of_ready hs (by decide)]
    exact ⟨ready_stepCode (by decide) (by decide), _, rfl⟩
  | false =>
    rw [openMark, if_neg (by decide), step_of_ready hs (by decide)]
    exact ⟨ready_stepCode (by decide) (by decide), _, rfl⟩

/-- A closing mark takes the innermost bracket away. -/
lemma step_closeMark (hs : s.Ready) (round : Bool) :
    (s.step (closeMark round)).Ready ∧ (s.step (closeMark round)).brackets = s.brackets.drop 1 := by
  cases round with
  | true =>
    rw [closeMark, if_pos rfl, step_of_ready hs (by decide)]
    exact ⟨ready_stepCode (by decide) (by decide), rfl⟩
  | false =>
    rw [closeMark, if_neg (by decide), step_of_ready hs (by decide)]
    exact ⟨ready_stepCode (by decide) (by decide), rfl⟩

lemma step_comma (hs : s.Ready) :
    (s.step ',').Ready ∧ (s.step ',').brackets = tally 1 s.brackets := by
  rw [step_of_ready hs (by decide)]
  refine ⟨ready_stepCode (by decide) (by decide), ?_⟩
  show s.bracketsAfter ',' = _
  unfold bracketsAfter
  cases s.brackets <;> rfl

/-- **Reading a fragment** leaves the open brackets as they were, and counts its commas for the
innermost one. -/
lemma scan_fragment (ht : Fragment n t) (hs : s.Ready) :
    (t.foldl step s).Ready ∧ (t.foldl step s).brackets = tally n s.brackets := by
  induction ht generalizing s with
  | nil => exact ⟨hs, (tally_zero _).symm⟩
  | char hc _ ih =>
    obtain ⟨hready, hbrackets, -⟩ := step_ordinary hs hc
    rw [List.foldl_cons, ← hbrackets]
    exact ih hready
  | @literal n q inside t hq hinside _ ih =>
    obtain ⟨hmode, hopened⟩ := step_quote hs hq
    obtain ⟨hmode, hinside⟩ := scan_quoted hmode hinside
    rw [List.cons_append, List.foldl_cons, List.foldl_append, List.foldl_cons, ← hopened, ← hinside]
    generalize inside.foldl step (s.step q) = s' at hmode
    have hclosed : (s'.step q).Ready := by
      refine Or.inr ⟨q, hq, ?_⟩
      rw [step, hmode]
      exact if_pos rfl
    have hbrackets : (s'.step q).brackets = s'.brackets := by rw [step, hmode]
    rw [← hbrackets]
    exact ih hclosed
  | @group n m inside t round _ _ ihInside ih =>
    obtain ⟨hready, f, hopened⟩ := step_openMark hs round
    obtain ⟨hready, hinside⟩ := ihInside hready
    obtain ⟨hready, hclosed⟩ := step_closeMark hready round
    rw [hinside, hopened] at hclosed
    rw [List.cons_append, List.foldl_cons, List.foldl_append, List.foldl_cons]
    obtain ⟨hready, hrest⟩ := ih hready
    exact ⟨hready, hrest.trans (congrArg (tally n) hclosed)⟩
  | comma _ ih =>
    obtain ⟨hready, hbrackets⟩ := step_comma hs
    obtain ⟨hready, hrest⟩ := ih hready
    rw [List.foldl_cons]
    exact ⟨hready, by rw [hrest, hbrackets, tally_tally]⟩

end Scan

/-! ### Open calls -/

/-- The name of a function as it can stand before a parenthesis: identifier characters, with a `$`
before them or not, and no word that may stand there without being a function. -/
def IsCallName (name : Text) : Prop :=
  (∃ word, word ≠ [] ∧ (∀ c ∈ word, isIdentifier c) ∧ (name = word ∨ name = '$' :: word)) ∧
    nonCallKeywords.any (Text.sameIgnoringCase name) = false

/-- A call whose parenthesis is still open. -/
structure OpenCall where
  name : Text
  gap : Text
  arguments : List Text
  rest : Text
  isName : IsCallName name
  isGap : ∀ c ∈ gap, isBlank c
  complete : ∀ a ∈ arguments, Fragment 0 a
  closed : Fragment 0 rest

namespace OpenCall

/-- The call as it is written up to the cursor. -/
def text (call : OpenCall) : Text :=
  call.name ++ call.gap ++ '(' :: (argumentsText call.arguments ++ call.rest)

/-- The bracket that the call keeps open. -/
def bracket (call : OpenCall) : Bracket :=
  ⟨true, some call.name, call.arguments.length⟩

end OpenCall

/-- Whether a name right after a text would be read together with the end of the text. -/
def endsInName (t : Text) : Bool :=
  t.getLast?.any fun c => isIdentifier c || c == '$'

/-- Each call starts where no name ends. -/
def Separated : Text → List OpenCall → Prop
  | _, [] => True
  | before, call :: calls => endsInName before = false ∧ Separated (before ++ call.text) calls

/-! ### Names -/

/-- The characters of a class that holds no mark are ordinary. -/
lemma isOrdinary_of_class {p : Char → Bool} (hp : marks.all fun c => !p c) (hc : p c) :
    isOrdinary c := by
  have hmark : c ∉ marks := fun hmark => by simpa [hc] using List.all_eq_true.mp hp c hmark
  simpa [isOrdinary] using hmark

lemma isOrdinary_of_isIdentifier (hc : isIdentifier c) : isOrdinary c :=
  isOrdinary_of_class (by decide +kernel) hc

lemma isOrdinary_of_isBlank (hc : isBlank c) : isOrdinary c :=
  isOrdinary_of_class (by decide +kernel) hc

/-- The characters of a name are ordinary, and its last one is an identifier character. -/
lemma IsCallName.ordinary {name : Text} (h : IsCallName name) :
    (∀ c ∈ name, isOrdinary c) ∧ ∃ init last, name = init ++ [last] ∧ isIdentifier last := by
  obtain ⟨⟨word, hne, hword, hname⟩, -⟩ := h
  have hlast : isIdentifier (word.getLast hne) := hword _ (List.getLast_mem hne)
  have hsplit := List.dropLast_concat_getLast hne
  rcases hname with rfl | rfl
  · exact ⟨fun c hc => isOrdinary_of_isIdentifier (hword c hc), _, _, hsplit.symm, hlast⟩
  · refine ⟨fun c hc => ?_, '$' :: word.dropLast, _, by rw [List.cons_append, hsplit], hlast⟩
    rcases List.mem_cons.mp hc with rfl | hc
    · decide
    · exact isOrdinary_of_isIdentifier (hword c hc)

/-- **The name before a parenthesis** is found in the text read so far, given from its last
character on. -/
lemma identifierBefore_name {name gap before : Text} (hname : IsCallName name)
    (hgap : ∀ c ∈ gap, isBlank c) (hbefore : endsInName before = false) :
    identifierBefore (before ++ name ++ gap).reverse = some name := by
  obtain ⟨⟨word, hne, hword, hname⟩, hkeyword⟩ := hname
  -- the text before the word, from its last character on
  obtain ⟨rest, hread, hrest, hdollar⟩ : ∃ rest : Text,
      (before ++ name).reverse = word.reverse ++ rest ∧ rest.head?.any isIdentifier = false ∧
        (if rest.head? = some '$' then '$' :: word else word) = name := by
    rcases hname with rfl | rfl
    · refine ⟨before.reverse, List.reverse_append, ?_, ?_⟩
      · rw [List.head?_reverse]
        cases hlast : before.getLast? with
        | none => rfl
        | some c => simp_all [endsInName]
      · rw [List.head?_reverse]
        cases hlast : before.getLast? with
        | none => rfl
        | some c => simp_all [endsInName]
    · have hdollar : isIdentifier '$' = false := by decide
      exact ⟨'$' :: before.reverse, by simp, hdollar, rfl⟩
  have hblank : (before ++ name ++ gap).reverse.dropWhile isBlank = word.reverse ++ rest := by
    rw [List.reverse_append, hread, List.dropWhile_append_of_pos (by simpa using hgap)]
    obtain ⟨c, cs, hcs⟩ := List.exists_cons_of_ne_nil (List.reverse_ne_nil_iff.mpr hne)
    have hc : isIdentifier c := hword c (by rw [← List.mem_reverse, hcs]; exact List.mem_cons_self)
    rw [hcs, List.cons_append, List.dropWhile_cons_of_neg (not_isBlank_of_isIdentifier hc)]
  have hword' : (word.reverse ++ rest).takeWhile isIdentifier = word.reverse := by
    rw [List.takeWhile_append_of_pos (by simpa using hword)]
    cases rest with
    | nil => simp
    | cons c rest =>
      have hc : isIdentifier c = false := hrest
      simp [hc]
  have hempty : word.reverse.isEmpty = false := by simpa using hne
  simp only [identifierBefore, hblank, hword', hempty, List.drop_left, List.reverse_reverse]
  rw [if_neg (by decide)]
  split
  · obtain rfl : '$' :: word = name := hdollar
    exact if_neg (by simp [hkeyword])
  · rename_i hno
    have hhead : rest.head? ≠ some '$' := fun h => by
      obtain ⟨tail, rfl⟩ := List.head?_eq_some_iff.mp h
      exact hno tail rfl
    obtain rfl : word = name := by rwa [if_neg hhead] at hdollar
    exact if_neg (by simp [hkeyword])

/-! ### Reading calls -/

namespace Scan

variable {s : Scan}

/-- Reading ordinary text keeps the last character that is not blank. -/
lemma last_foldl_of_blank {gap : Text} (hs : s.Ready) (hgap : ∀ c ∈ gap, isBlank c) :
    (gap.foldl step s).last = s.last := by
  induction gap generalizing s with
  | nil => rfl
  | cons c gap ih =>
    have hc := hgap c List.mem_cons_self
    obtain ⟨hready, -, hlast⟩ := step_ordinary hs (isOrdinary_of_isBlank hc)
    rw [if_pos hc] at hlast
    rw [List.foldl_cons, ih hready fun d hd => hgap d (List.mem_cons_of_mem c hd), hlast]

/-- Reading a name and the blanks after it: the brackets stay, and the last character that is not
blank is one of an identifier. -/
lemma scan_name {name gap : Text} (hs : s.Ready) (hname : IsCallName name)
    (hgap : ∀ c ∈ gap, isBlank c) :
    ((name ++ gap).foldl step s).Ready ∧ ((name ++ gap).foldl step s).brackets = s.brackets ∧
      ((name ++ gap).foldl step s).last ≠ some '(' := by
  obtain ⟨hordinary, init, last, hsplit, hlast⟩ := hname.ordinary
  have hinit : Fragment 0 init := fragment_of_ordinary fun c hc =>
    hordinary c (hsplit ▸ List.mem_append_left _ hc)
  have hfragment : Fragment 0 (name ++ gap) := fragment_of_ordinary fun c hc => by
    rcases List.mem_append.mp hc with hc | hc
    · exact hordinary c hc
    · exact isOrdinary_of_isBlank (hgap c hc)
  obtain ⟨hready, hbrackets⟩ := scan_fragment hfragment hs
  refine ⟨hready, hbrackets.trans (tally_zero _), ?_⟩
  obtain ⟨hready, -, hafter⟩ := step_ordinary (scan_fragment hinit hs).1
    (isOrdinary_of_isIdentifier hlast)
  rw [if_neg (not_isBlank_of_isIdentifier hlast)] at hafter
  rw [hsplit, List.foldl_append, List.foldl_append, List.foldl_cons, List.foldl_nil,
    last_foldl_of_blank hready hgap, hafter, ne_eq, Option.some.injEq]
  rintro rfl
  exact absurd hlast (by decide +kernel)

/-- **Reading an open call** adds its bracket, with the commas of its complete arguments. -/
lemma scan_call {before : Text} (hs : s.Ready) (hread : s.read = before.reverse)
    (hbefore : endsInName before = false) (call : OpenCall) :
    (call.text.foldl step s).Ready ∧
      (call.text.foldl step s).brackets = call.bracket :: s.brackets := by
  obtain ⟨hready, hbrackets, hlast⟩ := scan_name hs call.isName call.isGap
  have hname : identifierBefore ((call.name ++ call.gap).foldl step s).read = some call.name := by
    rw [read_foldl_step, hread, ← List.reverse_append, ← List.append_assoc]
    exact identifierBefore_name call.isName call.isGap hbefore
  rw [OpenCall.text, List.foldl_append, List.foldl_cons]
  generalize (call.name ++ call.gap).foldl step s = s' at *
  have hopened : (s'.step '(').brackets = ⟨true, some call.name, 0⟩ :: s.brackets := by
    rw [step_of_ready hready (by decide), ← hbrackets, ← hname]
    exact congrArg (fun f => (⟨true, f, 0⟩ : Bracket) :: s'.brackets) (if_neg hlast)
  have hready : (s'.step '(').Ready := (step_openMark hready true).1
  have hinside := (fragment_arguments call.complete).append call.closed
  obtain ⟨hready, hbrackets⟩ := scan_fragment hinside hready
  refine ⟨hready, hbrackets.trans ?_⟩
  rw [hopened, tally, OpenCall.bracket, Nat.zero_add, Nat.add_zero]

/-- **Reading calls inside calls** adds a bracket for each, the innermost first. -/
lemma scan_calls {before : Text} {calls : List OpenCall} (hs : s.Ready)
    (hread : s.read = before.reverse) (hcalls : Separated before calls) :
    ((calls.flatMap OpenCall.text).foldl step s).Ready ∧
      ((calls.flatMap OpenCall.text).foldl step s).brackets =
        (calls.map OpenCall.bracket).reverse ++ s.brackets := by
  induction calls generalizing s before with
  | nil => exact ⟨hs, rfl⟩
  | cons call calls ih =>
    obtain ⟨hready, hbrackets⟩ := scan_call hs hread hcalls.1 call
    have hread : (call.text.foldl step s).read = (before ++ call.text).reverse := by
      rw [read_foldl_step, hread, List.reverse_append]
    rw [List.flatMap_cons, List.foldl_append]
    obtain ⟨hready, hrest⟩ := ih hready hread hcalls.2
    refine ⟨hready, hrest.trans ?_⟩
    rw [hbrackets, List.map_cons, List.reverse_cons, List.append_assoc]
    rfl

/-- The innermost parenthesis gives the call. -/
lemma context_of_bracket {call : OpenCall} {bs : List Bracket}
    (h : s.brackets = call.bracket :: bs) :
    s.context = ⟨some call.name, call.arguments.length⟩ := by
  rw [context, h]
  rfl

end Scan

/-! ### The innermost call -/

/-- **The innermost call.** Take any text whose strings and brackets are complete, with commas or
not, and after it one or more calls, each opened inside the one before it: a name that starts where
no other name ends, blanks or none, a parenthesis, complete arguments with a comma after each, and
complete text for the start of the next argument. The call at the end is the last one, with as many
arguments before the cursor as it has complete ones; and it is the same if a string starts there and
does not end. -/
theorem context_nested (outside : Text) (commas : Nat) (calls : List OpenCall) (call : OpenCall)
    (houtside : Fragment commas outside) (hcalls : Separated outside (calls ++ [call])) :
    let t := outside ++ (calls ++ [call]).flatMap OpenCall.text
    context t = ⟨some call.name, call.arguments.length⟩ ∧
      ∀ q inside, isQuote q → Quoted q inside →
        context (t ++ q :: inside) = ⟨some call.name, call.arguments.length⟩ := by
  intro t
  obtain ⟨hready, -⟩ := Scan.scan_fragment houtside (Or.inl rfl : Scan.start.Ready)
  have hread := Scan.read_foldl_step Scan.start outside
  obtain ⟨hready, hbrackets⟩ := Scan.scan_calls hready
    (hread.trans (List.append_nil _)) hcalls
  rw [← List.foldl_append, List.map_append, List.reverse_append, List.append_assoc] at hbrackets
  rw [← List.foldl_append] at hready
  refine ⟨Scan.context_of_bracket hbrackets, fun q inside hq hinside => ?_⟩
  obtain ⟨hmode, hopened⟩ := Scan.step_quote hready hq
  obtain ⟨-, hinside⟩ := Scan.scan_quoted hmode hinside
  rw [context, List.foldl_append, List.foldl_cons]
  exact Scan.context_of_bracket (hinside.trans (hopened.trans hbrackets))

/-- Two numbers with a comma between them. -/
lemma fragment_pair : Fragment 1 ['1', ',', ' ', '2'] :=
  .char (by decide) (.comma (.char (by decide) (.char (by decide) .nil)))

/-- A call with a string and a subscript for its first two arguments, each with a comma in it. -/
def outerCall : OpenCall where
  name := "Outer".toList
  gap := [' ']
  arguments := ['"' :: ['a', '"', '"', ',', '('] ++ ['"'],
    [' ', '$', 'm'] ++ '[' :: ['1', ',', ' ', '2'] ++ [']']]
  rest := [' ']
  isName := ⟨⟨"Outer".toList, by decide, List.all_eq_true.mp (by decide +kernel), .inl rfl⟩,
    by decide +kernel⟩
  isGap := List.all_eq_true.mp (by decide)
  complete := by
    have hstring : Quoted '"' ['a', '"', '"', ',', '('] :=
      .char (by decide) (.doubled (.char (by decide) (.char (by decide) .nil)))
    have hname : Fragment 0 [' ', '$', 'm'] :=
      fragment_of_ordinary (List.all_eq_true.mp (by decide))
    rw [List.forall_mem_cons, List.forall_mem_singleton]
    exact ⟨.literal (by decide) hstring .nil, hname.append (.group false fragment_pair .nil)⟩
  closed := fragment_of_ordinary (List.all_eq_true.mp (by decide))

/-- A call through a variable, whose first argument is a call that is closed again. -/
def innerCall : OpenCall where
  name := "$Inner".toList
  gap := []
  arguments := [['g'] ++ '(' :: ['1', ',', ' ', '2'] ++ [')']]
  rest := [' ']
  isName := ⟨⟨"Inner".toList, by decide, List.all_eq_true.mp (by decide +kernel),
    .inr (by decide +kernel)⟩, by decide +kernel⟩
  isGap := List.all_eq_true.mp (by decide)
  complete := by
    have hname : Fragment 0 ['g'] := fragment_of_ordinary (List.all_eq_true.mp (by decide))
    rw [List.forall_mem_singleton]
    exact hname.append (.group true fragment_pair .nil)
  closed := fragment_of_ordinary (List.all_eq_true.mp (by decide))

/-- What stands before the calls: a call that is closed, and a comma. -/
def closedText : Text :=
  ['f'] ++ ('(' :: ['1', ',', ' ', '2'] ++ ')' :: [',', ' '])

/-- The cursor is in a string that is the second argument of the inner call. -/
theorem context_nested_inner :
    context "f(1, 2), Outer (\"a\"\",(\", $m[1, 2], $Inner(g(1, 2), 'x, (".toList =
      ⟨some "$Inner".toList, 1⟩ := by
  have hname : Fragment 0 ['f'] := fragment_of_ordinary (List.all_eq_true.mp (by decide))
  have hclosed : Fragment 1 closedText :=
    hname.append (.group true fragment_pair (.comma (.char (by decide) .nil)))
  have hstring : Quoted apostrophe ['x', ',', ' ', '('] :=
    .char (by decide) (.char (by decide) (.char (by decide) (.char (by decide) .nil)))
  have hcalls : Separated closedText ([outerCall] ++ [innerCall]) :=
    ⟨by decide +kernel, by decide +kernel, trivial⟩
  have h := (context_nested _ _ [outerCall] innerCall hclosed hcalls).2 apostrophe _
    (by decide) hstring
  have htext : "f(1, 2), Outer (\"a\"\",(\", $m[1, 2], $Inner(g(1, 2), 'x, (".toList =
      closedText ++ ([outerCall] ++ [innerCall]).flatMap OpenCall.text ++
        apostrophe :: ['x', ',', ' ', '('] := by
    decide +kernel
  rw [htext]
  exact h

end Call

end AutoItServer
