import AutoItServer.Symbol.Extent
import AutoItServer.Proofs.Text.Line
import Mathlib.Data.List.TakeWhile

/-!
The extent of a function, line by line.

The end of a function is the first line that starts with `EndFunc`. A header may need more than its
line: `Func` alone goes on with the next line that is not blank.

* `Extent.BreakFirst`: a text before which a line ends. What a line starts with does not depend on
  such a text (`endFuncHere?_append`, `headerHere_append`), unless the line is a lone `Func`.
* `endFunc?_append` (**the first end**): the end of a function is in the first lines that have one.
* `Extent.someLine`: whether some line has a property. `hasHeader_append` uses it for headers.
* `length?_append_of_some`, `length?_append_of_none`: the extent of a function whose end is in the
  first part of a text, or behind it.
-/

namespace AutoItServer

namespace Extent

open AutoItServer.Text (byteLength takeBytes WholeLines Terminates)

variable {s t x y z body line term rest : Text}

/-! ### What a line starts with -/

/-- A text before which a line ends: it is empty or starts with a line end. -/
def BreakFirst (z : Text) : Prop :=
  ∀ c, z.head? = some c → c = '\n' ∨ c = '\r'

lemma breakFirst_lf (rest : Text) : BreakFirst ('\n' :: rest) := by
  intro c hc
  exact Or.inl (Option.some.inj hc).symm

lemma breakFirst_of_terminates (h : Terminates term rest) : BreakFirst (term ++ rest) := by
  intro c hc
  cases h with
  | lf => exact Or.inl (Option.some.inj hc).symm
  | crlf => exact Or.inr (Option.some.inj hc).symm
  | cr => exact Or.inr (Option.some.inj hc).symm
  | none => cases hc

/-- Tabs and spaces at the start of a line do not go on in the next one. -/
lemma dropWhile_isIndent_append (hz : BreakFirst z) (s : Text) :
    (s ++ z).dropWhile isIndent = s.dropWhile isIndent ++ z := by
  rw [List.dropWhile_append]
  split_ifs with hempty
  · rw [List.isEmpty_iff.mp hempty, List.nil_append]
    cases z with
    | nil => rfl
    | cons c z =>
      rcases hz c rfl with rfl | rfl
      · rfl
      · rfl
  · rfl

/-- A keyword without line ends. -/
def isOneLine (keyword : Text) : Bool :=
  keyword.all fun k => !sameFold k '\n' && !sameFold k '\r'

lemma isOneLine_func : isOneLine "func".toList := by decide

lemma isOneLine_endfunc : isOneLine "endfunc".toList := by decide

/-- A keyword does not go on in the next line. -/
lemma afterFolded?_append {keyword : Text} (hkeyword : isOneLine keyword)
    (hz : BreakFirst z) (s : Text) :
    Text.afterFolded? keyword (s ++ z) = (Text.afterFolded? keyword s).map (· ++ z) := by
  induction keyword generalizing s with
  | nil => rfl
  | cons k keyword ih =>
    simp only [isOneLine, List.all_cons, Bool.and_eq_true, Bool.not_eq_true'] at hkeyword
    cases s with
    | nil =>
      cases z with
      | nil => rfl
      | cons c z => rcases hz c rfl with rfl | rfl <;> simp [Text.afterFolded?, hkeyword.1]
    | cons c s =>
      rw [List.cons_append, Text.afterFolded?, Text.afterFolded?]
      split_ifs
      · exact ih (by simpa [isOneLine] using hkeyword.2) s
      · rfl

lemma endsWord_append (hz : BreakFirst z) (s : Text) :
    Text.endsWord (s ++ z) = Text.endsWord s := by
  have hlf : isWord '\n' = false := by decide
  have hcr : isWord '\r' = false := by decide
  cases s with
  | cons c s => rfl
  | nil =>
    cases z with
    | nil => rfl
    | cons c z => rcases hz c rfl with rfl | rfl <;> simp [Text.endsWord, hlf, hcr]

/-- **An end** is known from its line. -/
lemma endFuncHere?_append (hz : BreakFirst z) (s : Text) :
    endFuncHere? (s ++ z) = endFuncHere? s := by
  rw [endFuncHere?, endFuncHere?, dropWhile_isIndent_append hz,
    afterFolded?_append isOneLine_endfunc hz]
  cases Text.afterFolded? "endfunc".toList (s.dropWhile isIndent) with
  | none => rfl
  | some rest =>
    simp only [Option.map_some, endsWord_append hz, Text.byteLength_append, Nat.add_sub_add_right]

/-- Whether a text starts with the word `Func`, after which a header may go on. -/
def startsHeader (t : Text) : Bool :=
  match Text.afterFolded? "func".toList (t.dropWhile isIndent) with
  | none => false
  | some [] => true
  | some (c :: _) => isBlank c

/-- A line that does not start with `Func` is no header, whatever follows. -/
lemma headerHere_of_not_startsHeader (h : startsHeader line = false) (hz : BreakFirst z) :
    headerHere (line ++ z) = false := by
  rw [startsHeader] at h
  rw [headerHere, dropWhile_isIndent_append hz, afterFolded?_append isOneLine_func hz]
  rcases hafter : Text.afterFolded? "func".toList (line.dropWhile isIndent) with - | - | ⟨c, rest⟩
  · rfl
  · rw [hafter] at h
    cases h
  · rw [hafter] at h
    simp only [Option.map_some, List.cons_append]
    rw [show isBlank c = false from h, Bool.false_and]

/-- Whether a text is a header that is not complete: `Func` and nothing but blanks. -/
def openHere (t : Text) : Bool :=
  match Text.afterFolded? "func".toList (t.dropWhile isIndent) with
  | some (b :: rest) => isBlank b && (Text.trimStart rest).isEmpty
  | _ => false

/-- A header that is complete, or cannot become one, does not depend on what follows. -/
lemma headerHere_append (h : openHere (line ++ '\n' :: rest) = false) (z : Text) :
    headerHere (line ++ '\n' :: rest ++ z) = headerHere (line ++ '\n' :: rest) := by
  have hlf := breakFirst_lf rest
  have hlf' := breakFirst_lf (rest ++ z)
  rw [openHere, dropWhile_isIndent_append hlf, afterFolded?_append isOneLine_func hlf] at h
  rw [List.append_assoc, List.cons_append, headerHere, headerHere, dropWhile_isIndent_append hlf,
    afterFolded?_append isOneLine_func hlf, dropWhile_isIndent_append hlf',
    afterFolded?_append isOneLine_func hlf']
  cases hafter : Text.afterFolded? "func".toList (line.dropWhile isIndent) with
  | none => rfl
  | some after =>
    -- the blanks after `Func` end inside the text, or there is none
    rw [hafter, Option.map_some] at h
    obtain ⟨b, tail, htail⟩ : ∃ b tail, after ++ '\n' :: rest = b :: tail := by
      cases after with
      | nil => exact ⟨_, _, rfl⟩
      | cons b tail => exact ⟨_, _, rfl⟩
    have htail' : after ++ '\n' :: (rest ++ z) = b :: (tail ++ z) := by
      simpa using congrArg (· ++ z) htail
    rw [htail] at h
    simp only [Option.map_some, htail, htail']
    cases hblank : isBlank b with
    | false => rfl
    | true =>
      have hne : (Text.trimStart tail).isEmpty = false := by simpa [hblank] using h
      rw [Text.trimStart, Text.trimStart, List.dropWhile_append]
      rw [Text.trimStart] at hne
      rw [hne, if_neg (by decide)]
      obtain ⟨c, cs, hcs⟩ := List.exists_cons_of_ne_nil (List.isEmpty_eq_false_iff.mp hne)
      rw [hcs]
      rfl

/-! ### The first end -/

/-- Inside a line no line starts. -/
lemma endFunc?_false_lf (h : '\n' ∉ body) (rest : Text) :
    endFunc? false (body ++ '\n' :: rest) =
      (endFunc? true rest).map (byteLength (body ++ ['\n']) + ·) := by
  induction body with
  | nil => rfl
  | cons c body ih =>
    obtain ⟨hc, hbody⟩ := not_or.mp (mt List.mem_cons.mpr h)
    have hflag : (c == '\n') = false := beq_eq_false_iff_ne.mpr (Ne.symm hc)
    rw [List.cons_append, endFunc?]
    simp only [Bool.false_eq_true, if_false]
    rw [hflag, ih hbody, Option.map_map]
    congr 1
    funext n
    simp [Nat.add_assoc]

lemma endFunc?_false_of_lf_not_mem (h : '\n' ∉ body) : endFunc? false body = none := by
  induction body with
  | nil => rfl
  | cons c body ih =>
    obtain ⟨hc, hbody⟩ := not_or.mp (mt List.mem_cons.mpr h)
    have hflag : (c == '\n') = false := beq_eq_false_iff_ne.mpr (Ne.symm hc)
    rw [endFunc?]
    simp only [Bool.false_eq_true, if_false]
    rw [hflag, ih hbody]
    rfl

/-- At the start of a line the end is here or further on. -/
lemma endFunc?_true (t : Text) : endFunc? true t = (endFuncHere? t).or (endFunc? false t) := by
  cases t with
  | nil => decide
  | cons c t =>
    rw [endFunc?, endFunc?]
    simp only [if_true, Bool.false_eq_true, if_false]
    cases endFuncHere? (c :: t) <;> rfl

/-- The end of a function in a text that starts with one line. -/
lemma endFunc?_line (hline : '\n' ∉ line) (h : Terminates term rest) :
    endFunc? true (line ++ (term ++ rest)) =
      (endFuncHere? line).or ((endFunc? true rest).map (byteLength (line ++ term) + ·)) := by
  rw [endFunc?_true, endFuncHere?_append (breakFirst_of_terminates h)]
  congr 1
  cases h with
  | lf => exact endFunc?_false_lf hline rest
  | crlf =>
    have hcr : '\n' ∉ line ++ ['\r'] := by simp [hline]
    simpa using endFunc?_false_lf hcr rest
  | cr => exact endFunc?_false_of_lf_not_mem (by simp [hline])
  | none => exact endFunc?_false_of_lf_not_mem (by simpa using hline)

/-- **The first end** in a text of two parts is in the first part, or else in the second. -/
lemma endFunc?_append (hx : WholeLines x) (y : Text) :
    endFunc? true (x ++ y) = (endFunc? true x).or ((endFunc? true y).map (byteLength x + ·)) := by
  induction x using Text.lines_induction with
  | empty =>
    rw [Text.byteLength_nil, List.nil_append]
    simp [endFunc?]
  | last body hne hbody => exact absurd (hx.eq_nil hbody) hne
  | line body rest hbody ih =>
    have hrest : WholeLines rest := WholeLines.right (x := body ++ ['\n']) (by simpa using hx)
    have hlf := endFunc?_line hbody (.lf rest)
    have hlf' := endFunc?_line hbody (.lf (rest ++ y))
    simp only [List.singleton_append] at hlf hlf'
    rw [List.append_assoc, List.cons_append, hlf', hlf, ih hrest]
    cases endFuncHere? body with
    | some n => rfl
    | none =>
      cases endFunc? true rest with
      | some n => rfl
      | none =>
        simp only [Option.none_or, Option.map_none, Option.map_map]
        congr 1
        funext n
        simp [Nat.add_assoc]

lemma endFuncHere?_le {n : Nat} (h : endFuncHere? t = some n) : n ≤ byteLength t := by
  rw [endFuncHere?] at h
  split at h
  · split_ifs at h
    have := Option.some.inj h
    omega
  · cases h

lemma endFunc?_le {lineStart : Bool} {n : Nat} (h : endFunc? lineStart t = some n) :
    n ≤ byteLength t := by
  induction t generalizing lineStart n with
  | nil => cases h
  | cons c t ih =>
    rw [endFunc?] at h
    split at h
    · rename_i m hm
      split_ifs at hm
      have := endFuncHere?_le hm
      have := Option.some.inj h
      omega
    · obtain ⟨m, hm, rfl⟩ := Option.map_eq_some_iff.mp h
      have := ih hm
      rw [Text.byteLength_cons]
      omega

/-! ### Lines with a property -/

/-- Whether the text from the start of some line on has a property. -/
def someLine (p : Text → Bool) (lineStart : Bool) : Text → Bool
  | [] => false
  | c :: cs => (lineStart && p (c :: cs)) || someLine p (c == '\n') cs

lemma hasHeader_eq_someLine (lineStart : Bool) (t : Text) :
    hasHeader lineStart t = someLine headerHere lineStart t := by
  induction t generalizing lineStart with
  | nil => rfl
  | cons c t ih => rw [hasHeader, someLine, ih]

variable {p : Text → Bool}

/-- Inside a line no line starts. -/
lemma someLine_false_lf (h : '\n' ∉ body) (rest : Text) :
    someLine p false (body ++ '\n' :: rest) = someLine p true rest := by
  induction body with
  | nil => rfl
  | cons c body ih =>
    obtain ⟨hc, hbody⟩ := not_or.mp (mt List.mem_cons.mpr h)
    have hflag : (c == '\n') = false := beq_eq_false_iff_ne.mpr (Ne.symm hc)
    rw [List.cons_append, someLine, Bool.false_and, Bool.false_or, hflag, ih hbody]

/-- The first line has the property, or a later one. -/
lemma someLine_lf (h : '\n' ∉ body) (rest : Text) :
    someLine p true (body ++ '\n' :: rest) =
      (p (body ++ '\n' :: rest) || someLine p true rest) := by
  rw [← someLine_false_lf h rest]
  cases body <;> rfl

/-- A last line without the property. -/
lemma someLine_last (h : '\n' ∉ body) (hp : p body = false) : someLine p true body = false := by
  have hinner : ∀ s : Text, '\n' ∉ s → someLine p false s = false := by
    intro s hs
    induction s with
    | nil => rfl
    | cons c s ih =>
      obtain ⟨hc, hs⟩ := not_or.mp (mt List.mem_cons.mpr hs)
      have hflag : (c == '\n') = false := beq_eq_false_iff_ne.mpr (Ne.symm hc)
      rw [someLine, Bool.false_and, Bool.false_or, hflag, ih hs]
  cases body with
  | nil => rfl
  | cons c body =>
    have hrest := hinner _ h
    rw [someLine, Bool.false_and, Bool.false_or] at hrest
    rw [someLine, hp, hrest]
    rfl

/-- Some line of the second part is some line of the text. -/
lemma someLine_append_right (hx : WholeLines x) (h : someLine p true y) :
    someLine p true (x ++ y) := by
  induction x using Text.lines_induction with
  | empty => exact h
  | last body hne hbody => exact absurd (hx.eq_nil hbody) hne
  | line body rest hbody ih =>
    have hrest : WholeLines rest := WholeLines.right (x := body ++ ['\n']) (by simpa using hx)
    rw [List.append_assoc, List.cons_append, someLine_lf hbody, ih hrest, Bool.or_true]

/-- **Headers** in a text of two parts, where the first part does not end in a lone `Func`. -/
lemma hasHeader_append (hx : WholeLines x) (hopen : someLine openHere true x = false) (y : Text) :
    hasHeader true (x ++ y) = (hasHeader true x || hasHeader true y) := by
  simp only [hasHeader_eq_someLine]
  induction x using Text.lines_induction with
  | empty => rfl
  | last body hne hbody => exact absurd (hx.eq_nil hbody) hne
  | line body rest hbody ih =>
    have hrest : WholeLines rest := WholeLines.right (x := body ++ ['\n']) (by simpa using hx)
    rw [someLine_lf hbody, Bool.or_eq_false_iff] at hopen
    have hhere := headerHere_append hopen.1 y
    rw [List.append_assoc, List.cons_append] at hhere ⊢
    rw [someLine_lf hbody, someLine_lf hbody, ih hrest hopen.2, hhere, Bool.or_assoc]

/-- A line that does not start with `Func` can be left out. -/
lemma hasHeader_line (hline : '\n' ∉ line) (hquiet : startsHeader line = false)
    (h : Terminates term rest) : hasHeader true (line ++ (term ++ rest)) = hasHeader true rest := by
  have hhere := headerHere_of_not_startsHeader hquiet (breakFirst_of_terminates h)
  simp only [hasHeader_eq_someLine]
  cases h with
  | lf =>
    simp only [List.singleton_append] at hhere ⊢
    rw [someLine_lf hline, hhere, Bool.false_or]
  | crlf =>
    have hcr : '\n' ∉ line ++ ['\r'] := by simp [hline]
    have happend : line ++ (['\r', '\n'] ++ rest) = line ++ ['\r'] ++ '\n' :: rest := by simp
    rw [happend] at hhere ⊢
    rw [someLine_lf hcr, hhere, Bool.false_or]
  | cr => exact someLine_last (by simp [hline]) hhere
  | none => exact someLine_last (by simpa using hline) hhere

/-! ### The extent -/

/-- The lines after the first one, in a text of two parts. -/
lemma afterFirstLine_append (h : '\n' ∉ body) (rest : Text) :
    afterFirstLine (body ++ '\n' :: rest) = rest := by
  have hall : ∀ c ∈ body, decide (c ≠ '\n') = true := by
    intro c hc
    rw [decide_eq_true_eq]
    rintro rfl
    exact h hc
  rw [afterFirstLine, List.dropWhile_append_of_pos hall]
  rfl

lemma length?_eq_some_iff {n : Nat} : length? t = some n ↔
    endFunc? true t = some n ∧ hasHeader true (afterFirstLine (takeBytes n t)) = false := by
  rw [length?]
  cases endFunc? true t with
  | none => simp
  | some m =>
    simp only [Option.some.injEq]
    split_ifs with hheader
    · simp only [false_iff, not_and]
      rintro rfl
      simp [hheader]
    · constructor
      · intro h
        obtain rfl := Option.some.inj h
        exact ⟨rfl, by simpa using hheader⟩
      · rintro ⟨rfl, -⟩
        rfl

/-- Bytes of the first part. -/
lemma takeBytes_append_of_le {n : Nat} (h : n ≤ byteLength x) (y : Text) :
    takeBytes n (x ++ y) = takeBytes n x := by
  induction x generalizing n with
  | nil =>
    obtain rfl : n = 0 := Nat.le_zero.mp h
    rw [List.nil_append, Text.takeBytes_zero, Text.takeBytes_zero]
  | cons c x ih =>
    rw [List.cons_append, takeBytes, takeBytes]
    rw [Text.byteLength_cons] at h
    split_ifs
    · rw [ih (by omega)]
    · rfl

/-- The extent of a function whose end is in the first part. -/
lemma length?_append_of_some {n : Nat} (hx : WholeLines x)
    (h : endFunc? true x = some n) (y : Text) :
    length? (x ++ y) = length? x := by
  have hend : endFunc? true (x ++ y) = some n := by
    rw [endFunc?_append hx, h, Option.some_or]
  rw [length?, length?, hend, h]
  dsimp only
  rw [takeBytes_append_of_le (endFunc?_le h)]

/-- The extent of a function whose end is behind the first part, which has a first line and more. -/
lemma length?_append_of_none (hbody : '\n' ∉ body) (hrest : WholeLines rest)
    (h : endFunc? true (body ++ '\n' :: rest) = none) (y : Text) {n : Nat} :
    length? (body ++ '\n' :: rest ++ y) = some n ↔
      ∃ m, endFunc? true y = some m ∧ n = byteLength (body ++ '\n' :: rest) + m ∧
        hasHeader true (rest ++ takeBytes m y) = false := by
  have hwhole : WholeLines (body ++ '\n' :: rest) := by
    simpa using (Text.wholeLines_lf body).append hrest
  have hheader (m : Nat) : afterFirstLine (takeBytes (byteLength (body ++ '\n' :: rest) + m)
      (body ++ '\n' :: rest ++ y)) = rest ++ takeBytes m y := by
    rw [Text.takeBytes_byteLength_add, List.append_assoc, List.cons_append,
      afterFirstLine_append hbody]
  rw [length?_eq_some_iff, endFunc?_append hwhole, h, Option.none_or]
  constructor
  · rintro ⟨hend, hnone⟩
    obtain ⟨m, hm, rfl⟩ := Option.map_eq_some_iff.mp hend
    exact ⟨m, hm, rfl, hheader m ▸ hnone⟩
  · rintro ⟨m, hm, rfl, hnone⟩
    exact ⟨by rw [hm]; rfl, (hheader m).symm ▸ hnone⟩

end Extent

end AutoItServer
