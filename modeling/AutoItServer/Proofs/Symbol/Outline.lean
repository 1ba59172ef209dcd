import AutoItServer.Symbol.Outline
import AutoItServer.Proofs.Source.Hidden
import Mathlib.Data.List.Forall2
import Mathlib.Data.List.TakeWhile

/-!
Where the symbols of an outline come from.

The outline reads one line after another and only adds to what it has found. A line adds symbols
only if it stands outside every block comment, and at most one of them is a function.

* `Variable.IsName`: a `$` with word characters; `nameHere?_eq_some_iff` says when one stands at the
  start of a text, and `exists_of_mem_findFrom` that a variable is found where its name stands.
* `Outline.Defines`: a function symbol for the header in a line, with the extent of the function
  from there on. `Outline.Opens` and `Outline.Declares` are the same for regions and variables.
* `Outline.StandsFor`: a symbol that stands for something in a line.
* `Progress.step_cases` (**one line**): what a line adds to the outline.
* `found_run`, `functions_run`: what has been found stays, and the functions stand for different
  visible lines in their order.
* `functions_symbols` (**the origin of functions**): the functions of an outline and the code lines
  they stand for.
-/

namespace AutoItServer

namespace Variable

/-- A `$` with at least one word character behind it. -/
def IsName (name : Text) : Prop :=
  ∃ word, word ≠ [] ∧ (∀ c ∈ word, isWord c) ∧ name = '$' :: word

/-- A name stands at the start of a text if it goes on to the end of the word. -/
lemma nameHere?_eq_some_iff {t name : Text} :
    nameHere? t = some name ↔ IsName name ∧ ∃ rest, t = name ++ rest ∧ Text.endsWord rest := by
  constructor
  · intro h
    rw [nameHere?.eq_def] at h
    split at h
    next rest =>
      dsimp only at h
      split_ifs at h with hempty
      obtain rfl := Option.some.inj h
      refine ⟨⟨_, mt List.isEmpty_iff.mpr hempty, fun c hc => List.mem_takeWhile_imp hc, rfl⟩,
        rest.dropWhile isWord, ?_, Text.endsWord_iff.mpr fun c hc => ?_⟩
      · rw [List.cons_append, List.takeWhile_append_dropWhile]
      · have hhead := List.head?_dropWhile_not isWord rest
        rw [hc] at hhead
        simpa using hhead
    next => cases h
  · rintro ⟨⟨word, hne, hword, rfl⟩, rest, rfl, hrest⟩
    rw [List.cons_append, nameHere?, Text.takeWhile_span hword (Text.endsWord_iff.mp hrest)]
    exact if_neg (mt List.isEmpty_iff.mp hne)

/-- **A variable** is found where its name stands. -/
lemma exists_of_mem_findFrom {mode : Mode} {offset : Nat} {line : Text} {v : Nat × Text}
    (h : v ∈ findFrom mode offset line) :
    ∃ before word after, line = before ++ (v.2 ++ after) ∧ v.1 = offset + Text.byteLength before ∧
      v.2 = '$' :: word ∧ ∀ c ∈ word, isWord c := by
  induction line generalizing mode offset with
  | nil => cases h
  | cons c cs ih =>
    have hlater (h : v ∈ findFrom (mode.next c cs) (offset + c.utf8Size) cs) :
        ∃ before word after, c :: cs = before ++ (v.2 ++ after) ∧
          v.1 = offset + Text.byteLength before ∧
          v.2 = '$' :: word ∧ ∀ c ∈ word, isWord c := by
      obtain ⟨before, word, after, hline, hplace, hword⟩ := ih h
      refine ⟨c :: before, word, after, by rw [hline, List.cons_append], ?_, hword⟩
      rw [hplace, Text.byteLength_cons, Nat.add_assoc]
    rw [findFrom] at h
    split at h
    · rename_i name hname
      rcases List.mem_cons.mp h with rfl | h
      · split_ifs at hname
        obtain ⟨⟨word, -, hchars, hword⟩, rest, hline, -⟩ := nameHere?_eq_some_iff.mp hname
        exact ⟨[], word, rest, hline, rfl, hword, hchars⟩
      · exact hlater h
    · exact hlater h

end Variable

namespace Outline

open AutoItServer.Source (depthAfter hides isMarker visibleFrom codeLines)

variable {options : SymbolOptions} {t : Text} {l : Line} {following : List Line}

/-- A function symbol that stands for the header in a line. -/
structure Defines (t : Text) (l : Line) (f : Symbol) : Prop where
  kind : f.kind = .function
  start : f.start = l.offset
  head : ∃ rest, FunctionDef.head? l.text = some (f.name, rest)
  extent : ∃ n, Extent.length? (Text.dropBytes l.offset t) = some n ∧ f.stop = l.offset + n

/-- The functions among some symbols. -/
def functionsOf (symbols : List Symbol) : List Symbol :=
  symbols.filter (·.kind = .function)

/-- The regions among some symbols. -/
def regionsOf (symbols : List Symbol) : List Symbol :=
  symbols.filter (·.kind = .region)

/-- What a declaration declares: no function and no region. -/
def IsDeclared (kind : SymbolKind) : Prop :=
  kind ≠ .function ∧ kind ≠ .region

instance (kind : SymbolKind) : Decidable (IsDeclared kind) :=
  inferInstanceAs (Decidable (_ ∧ _))

/-- A region symbol that stands for the lines from one line to a later one. -/
structure Opens (l : Line) (following : List Line) (r : Symbol) : Prop where
  kind : r.kind = .region
  start : r.start = l.offset
  stop : ∃ m ∈ following, r.stop = m.offset + Text.byteLength m.text

/-- A symbol that stands for a variable in a line. -/
structure Declares (l : Line) (s : Symbol) : Prop where
  kind : IsDeclared s.kind
  place : ∃ v ∈ Variable.findAll l.text,
    s.name = v.2 ∧ s.start = l.offset + v.1 ∧ s.stop = l.offset + v.1 + Text.byteLength v.2

/-- A symbol that stands for something in a line, where the variables of the line have a
container. -/
inductive StandsFor (t : Text) (l : Line) (following : List Line) (container : Option Text)
    (s : Symbol) :
    Prop where
  | function : Defines t l s → StandsFor t l following container s
  | region : Opens l following s → StandsFor t l following container s
  | declared : Declares l s → s.container = container → StandsFor t l following container s

lemma isDeclared_declaredKind (line : Text) : IsDeclared (declaredKind line) := by
  simp only [declaredKind]
  split
  · decide
  · split_ifs <;> decide

/-- A line that declares nothing opens and closes no block. -/
lemma isMarker_of_isSkippable {line : Text} (h : Source.isSkippable line) :
    isMarker line = false := by
  rw [Source.isSkippable] at h
  split at h
  · rename_i htrim
    rw [isMarker, Source.isBlockStart, Source.isBlockEnd, htrim]
    rfl
  · rename_i c rest htrim
    rw [Bool.or_eq_true, Bool.and_eq_true, beq_iff_eq, beq_iff_eq] at h
    rcases h with rfl | ⟨-, h⟩
    · rw [isMarker, Source.isBlockStart, Source.isBlockEnd, htrim]
      rfl
    · exact (Bool.not_eq_true' _).mp h

namespace Progress

variable {p : Progress}

/-! ### One line -/

/-- What is being declared from one line to the next can be declared. -/
def Fit (p : Progress) : Prop :=
  ∀ kind, p.running = some kind → IsDeclared kind

lemma fit_start : start.Fit := nofun

/-- A header adds its function, which is not listed yet, or nothing. -/
lemma takeFunction_cases (p : Progress) (t : Text) (l : Line) :
    p.takeFunction t l = p ∨
      ∃ f, Defines t l f ∧ p.hasFunction f.name = false ∧ p.takeFunction t l = p.add f := by
  rw [takeFunction]
  split
  · exact Or.inl rfl
  · rename_i name rest hhead
    split_ifs with hlisted
    · exact Or.inl rfl
    · split
      · exact Or.inl rfl
      · rename_i n hn
        exact Or.inr ⟨_, ⟨rfl, rfl, ⟨rest, hhead⟩, n, hn, rfl⟩, Bool.not_eq_true _ ▸ hlisted, rfl⟩

lemma exists_takeFunction (hp : p.Fit) (t : Text) (l : Line) :
    ∃ new, (∀ s ∈ new, s.kind = .function) ∧ (p.takeFunction t l).found = p.found ++ new ∧
      (p.takeFunction t l).depth = p.depth ∧ (p.takeFunction t l).Fit := by
  rcases takeFunction_cases p t l with heq | ⟨f, hf, -, heq⟩
  · rw [heq]
    exact ⟨[], nofun, (List.append_nil _).symm, rfl, hp⟩
  · rw [heq]
    exact ⟨[f], by simpa using hf.kind, rfl, rfl, hp⟩

/-- A region ends with one of the lines that follow its start. -/
lemma exists_of_endFrom? {inner depth stop : Nat} {ls : List Line}
    (h : Region.endFrom? inner depth ls = some stop) :
    ∃ m ∈ ls, stop = m.offset + Text.byteLength m.text := by
  induction ls generalizing inner depth with
  | nil => cases h
  | cons l ls ih =>
    have hlater {inner depth : Nat} (h : Region.endFrom? inner depth ls = some stop) :
        ∃ m ∈ l :: ls, stop = m.offset + Text.byteLength m.text := by
      obtain ⟨m, hm, hstop⟩ := ih h
      exact ⟨m, List.mem_cons_of_mem l hm, hstop⟩
    simp only [Region.endFrom?] at h
    split_ifs at h
    · exact hlater h
    · exact hlater h
    · exact ⟨l, List.mem_cons_self, (Option.some.inj h).symm⟩
    · exact hlater h
    · exact hlater h

/-- A region start adds its region, which is not listed yet, or nothing. -/
lemma takeRegion_cases (p : Progress) (l : Line) (following : List Line) :
    p.takeRegion l following = p ∨
      ∃ r, Opens l following r ∧ p.hasRegion r.name = false ∧
        p.takeRegion l following = p.add r := by
  simp only [takeRegion]
  split_ifs with hlisted
  · exact Or.inl rfl
  · rw [Bool.or_eq_true, not_or, Bool.not_eq_true, Bool.not_eq_true] at hlisted
    split
    · exact Or.inl rfl
    · rename_i stop hstop
      rw [Region.end?] at hstop
      exact Or.inr ⟨_, ⟨rfl, rfl, exists_of_endFrom? hstop⟩, hlisted.2, rfl⟩

/-- Variables add symbols for some of them. -/
lemma foldl_takeVariable (kind : SymbolKind) (container : Option Text) (offset : Nat) (p : Progress)
    (vs : List (Nat × Text)) :
    ∃ new, (∀ s ∈ new, ∃ v ∈ vs,
        s = ⟨v.2, kind, container, offset + v.1, offset + v.1 + Text.byteLength v.2⟩) ∧
      vs.foldl (takeVariable kind container offset) p = { p with found := p.found ++ new } := by
  induction vs generalizing p with
  | nil => exact ⟨[], nofun, by simp⟩
  | cons v vs ih =>
    have hlater {new : List Symbol} (h : ∀ s ∈ new, ∃ v ∈ vs,
        s = ⟨v.2, kind, container, offset + v.1, offset + v.1 + Text.byteLength v.2⟩) :
        ∀ s ∈ new, ∃ w ∈ v :: vs,
          s = ⟨w.2, kind, container, offset + w.1, offset + w.1 + Text.byteLength w.2⟩ := by
      intro s hs
      obtain ⟨w, hw, hplace⟩ := h s hs
      exact ⟨w, List.mem_cons_of_mem v hw, hplace⟩
    rw [List.foldl_cons, takeVariable]
    split_ifs
    · obtain ⟨new, hnew, hlisted⟩ := ih p
      exact ⟨new, hlater hnew, hlisted⟩
    · obtain ⟨new, hnew, hlisted⟩ := ih (p.add _)
      rw [hlisted, add]
      dsimp only
      rw [List.append_assoc, List.singleton_append]
      exact ⟨_, List.forall_mem_cons.mpr ⟨⟨v, List.mem_cons_self, rfl⟩, hlater hnew⟩, rfl⟩

/-- What a line declares is no function and no region. -/
lemma Fit.isDeclared (hp : p.Fit) (line : Text) :
    IsDeclared (p.running.getD (declaredKind line)) := by
  cases hrunning : p.running with
  | none => exact isDeclared_declaredKind line
  | some kind => exact hp kind hrunning

/-- Variables add symbols with the container of their line. -/
lemma takeVariables_cases (hp : p.Fit) (l : Line) :
    ∃ new, (∀ s ∈ new, Declares l s ∧ s.container = p.containerAt l.offset) ∧
      (p.takeVariables l).found = p.found ++ new ∧
      (p.takeVariables l).depth = p.depth ∧ (p.takeVariables l).Fit := by
  have hkind := hp.isDeclared l.text
  obtain ⟨new, hnew, hlisted⟩ := foldl_takeVariable (p.running.getD (declaredKind l.text))
    (p.containerAt l.offset) l.offset p (Variable.findAll l.text)
  refine ⟨new, fun s hs => ?_, ?_, ?_, ?_⟩
  · obtain ⟨v, hv, rfl⟩ := hnew s hs
    exact ⟨⟨hkind, v, hv, rfl, rfl, rfl⟩, rfl⟩
  · rw [takeVariables, hlisted]
  · rw [takeVariables, hlisted]
  · rw [takeVariables, Fit]
    split_ifs
    · exact fun kind h => Option.some.inj h ▸ hkind
    · nofun

/-- What a line adds beside a function: a region, or variables. -/
def takeRest (p : Progress) (options : SymbolOptions) (l : Line) (following : List Line) :
    Progress :=
  if Source.isRegionStart l.text then if options.withRegions then p.takeRegion l following else p
  else if options.withVariables then p.takeVariables l
  else p

/-- The state with the blocks counted that a line opens or closes. -/
def counted (p : Progress) (l : Line) : Progress :=
  { p with depth := depthAfter p.depth l.text }

/-- A line is passed over, hidden, or taken: the function first, and then the rest. -/
lemma step_eq (p : Progress) (options : SymbolOptions) (t : Text) (l : Line)
    (following : List Line) :
    p.step options t l following =
      if Source.isSkippable l.text && !Source.isRegionStart l.text then p
      else if hides p.depth l.text then p.counted l
      else ((p.counted l).takeFunction t l).takeRest options l following :=
  rfl

lemma functions_of_found {q : Progress} {new : List Symbol} (h : q.found = p.found ++ new) :
    q.functions = p.functions ++ functionsOf new := by
  rw [functions, h, List.filter_append]
  rfl

/-- The container at an offset depends on the functions only. -/
lemma containerAt_of_found {q : Progress} {new : List Symbol} (h : q.found = p.found ++ new)
    (hnew : functionsOf new = []) (offset : Nat) : q.containerAt offset = p.containerAt offset := by
  rw [containerAt, containerAt, functions_of_found h, hnew, List.append_nil]

/-- Regions and variables add no functions. -/
lemma takeRest_cases (hp : p.Fit) (options : SymbolOptions) (t : Text) (l : Line)
    (following : List Line) :
    ∃ new, functionsOf new = [] ∧
      (∀ s ∈ new, StandsFor t l following
        ((p.takeRest options l following).containerAt l.offset) s) ∧
      (p.takeRest options l following).found = p.found ++ new ∧
      (p.takeRest options l following).depth = p.depth ∧ (p.takeRest options l following).Fit := by
  rw [takeRest]
  split_ifs
  · rcases takeRegion_cases p l following with heq | ⟨r, hr, -, heq⟩
    · rw [heq]
      exact ⟨[], rfl, nofun, (List.append_nil _).symm, rfl, hp⟩
    · rw [heq]
      refine ⟨[r], by simp [functionsOf, hr.kind], ?_, rfl, rfl, hp⟩
      exact List.forall_mem_singleton.mpr (.region hr)
  · exact ⟨[], rfl, nofun, (List.append_nil _).symm, rfl, hp⟩
  · obtain ⟨new, hnew, hfound, hrest⟩ := takeVariables_cases hp l
    have hnone : functionsOf new = [] := by
      refine List.filter_eq_nil_iff.mpr fun s hs => ?_
      rw [decide_eq_true_eq]
      exact (hnew s hs).1.kind.1
    refine ⟨new, hnone, fun s hs => ?_, hfound, hrest⟩
    rw [containerAt_of_found hfound hnone]
    exact .declared (hnew s hs).1 (hnew s hs).2
  · exact ⟨[], rfl, nofun, (List.append_nil _).symm, rfl, hp⟩

/-- What a line may add to the symbols found: only if it is visible, and at most one function. What
it adds stands for something in it. -/
structure Adds (t : Text) (l : Line) (following : List Line) (depth : Nat) (container : Option Text)
    (new : List Symbol) : Prop where
  functions : functionsOf new = [] ∨ ∃ f, Defines t l f ∧ functionsOf new = [f]
  visible : new ≠ [] → hides depth l.text = false
  standsFor : ∀ s ∈ new, StandsFor t l following container s

lemma adds_nil (t : Text) (l : Line) (following : List Line) (depth : Nat)
    (container : Option Text) :
    Adds t l following depth container [] :=
  ⟨Or.inl rfl, fun h => absurd rfl h, nofun⟩

/-- **One line** is counted, and adds to the symbols found. -/
lemma step_cases (hp : p.Fit) (options : SymbolOptions) (t : Text) (l : Line)
    (following : List Line) :
    ∃ new, Adds t l following p.depth ((p.step options t l following).containerAt l.offset) new ∧
      (p.step options t l following).found = p.found ++ new ∧
      (p.step options t l following).depth = depthAfter p.depth l.text ∧
      (p.step options t l following).Fit := by
  rw [step_eq]
  split_ifs with hskip hhides
  · have hplain := isMarker_of_isSkippable (Bool.and_eq_true_iff.mp hskip).1
    exact ⟨[], adds_nil .., (List.append_nil _).symm,
      (Source.depthAfter_of_plain hplain _).symm, hp⟩
  · exact ⟨[], adds_nil .., (List.append_nil _).symm, rfl, hp⟩
  · rw [Bool.not_eq_true] at hhides
    rcases takeFunction_cases (p.counted l) t l with heq | ⟨f, hf, -, heq⟩
    · rw [heq]
      obtain ⟨new, hnew, hstands, hrest⟩ :=
        takeRest_cases (p := p.counted l) hp options t l following
      exact ⟨new, ⟨Or.inl hnew, fun _ => hhides, hstands⟩, hrest⟩
    · rw [heq]
      obtain ⟨new, hnew, hstands, hfound, hrest⟩ :=
        takeRest_cases (p := (p.counted l).add f) hp options t l following
      refine ⟨f :: new, ⟨Or.inr ⟨f, hf, ?_⟩, fun _ => hhides, ?_⟩, ?_, hrest⟩
      · rw [functionsOf, List.filter_cons, if_pos (decide_eq_true hf.kind)]
        exact congrArg (f :: ·) hnew
      · exact List.forall_mem_cons.mpr ⟨.function hf, hstands⟩
      · rw [hfound, add, List.append_assoc]
        rfl

/-! ### Many lines -/

/-- What has been found stays. -/
lemma found_run (hp : p.Fit) (options : SymbolOptions) (t : Text) (ls : List Line) :
    p.found <+: (p.run options t ls).found := by
  induction ls generalizing p with
  | nil => exact List.prefix_rfl
  | cons l ls ih =>
    obtain ⟨new, -, hfound, -, hfit⟩ := step_cases hp options t l ls
    exact List.IsPrefix.trans ⟨new, hfound.symm⟩ (ih hfit)

/-- **The functions that lines add** stand for different visible lines, in their order. -/
lemma functions_run (hp : p.Fit) (options : SymbolOptions) (t : Text) (ls : List Line) :
    ∃ headers fs, headers.Sublist (visibleFrom p.depth ls) ∧ List.Forall₂ (Defines t) headers fs ∧
      (p.run options t ls).functions = p.functions ++ fs := by
  induction ls generalizing p with
  | nil => exact ⟨[], [], .slnil, .nil, (List.append_nil _).symm⟩
  | cons l ls ih =>
    obtain ⟨new, hadds, hfound, hdepth, hfit⟩ := step_cases hp options t l ls
    obtain ⟨headers, fs, hsub, hdefines, hfunctions⟩ := ih hfit
    rw [hdepth] at hsub
    rw [run, hfunctions, functions_of_found hfound, visibleFrom]
    rcases hadds.functions with hnone | ⟨f, hf, hone⟩
    · refine ⟨headers, fs, ?_, hdefines, by rw [hnone, List.append_nil]⟩
      split_ifs
      · exact hsub
      · exact hsub.cons l
    · have hvisible := hadds.visible fun hnil => by simp [hnil, functionsOf] at hone
      refine ⟨l :: headers, f :: fs, ?_, .cons hf hdefines, by rw [hone]; simp⟩
      rw [hvisible, if_neg (by decide)]
      exact hsub.cons_cons l

end Progress

/-- The lines beyond a limit come after those that are read. -/
lemma visibleFrom_take_sublist (n : Nat) (t : Text) :
    (visibleFrom 0 ((Text.lines t).take n)).Sublist (codeLines t) := by
  rw [codeLines]
  conv_rhs => rw [← List.take_append_drop n (Text.lines t), Source.visibleFrom_append]
  exact List.sublist_append_left _ _

/-- **The origin of functions**: the functions of an outline stand for different code lines, in
their order. -/
lemma functions_symbols (options : SymbolOptions) (t : Text) :
    ∃ headers, headers.Sublist (codeLines t) ∧
      List.Forall₂ (Defines t) headers (functionsOf (symbols options t)) := by
  obtain ⟨headers, fs, hsub, hdefines, hfunctions⟩ :=
    Progress.functions_run Progress.fit_start options t ((Text.lines t).take options.maxLines)
  have hfs : functionsOf (symbols options t) = fs := hfunctions
  exact ⟨headers, hsub.trans (visibleFrom_take_sublist options.maxLines t), hfs ▸ hdefines⟩

lemma exists_defines_of_mem {headers : List Line} {fs : List Symbol} {f : Symbol}
    (h : List.Forall₂ (Defines t) headers fs) (hf : f ∈ fs) : ∃ l ∈ headers, Defines t l f := by
  induction h with
  | nil => cases hf
  | cons hdefines _ ih =>
    rcases List.mem_cons.mp hf with rfl | hf
    · exact ⟨_, List.mem_cons_self, hdefines⟩
    · obtain ⟨l, hl, hdefines⟩ := ih hf
      exact ⟨l, List.mem_cons_of_mem _ hl, hdefines⟩

/-- Each function of an outline stands for a code line. -/
lemma exists_defines {f : Symbol} (h : f ∈ symbols options t) (hf : f.kind = .function) :
    ∃ l ∈ codeLines t, Defines t l f := by
  obtain ⟨headers, hsub, hdefines⟩ := functions_symbols options t
  obtain ⟨l, hl, hline⟩ :=
    exists_defines_of_mem hdefines (List.mem_filter.mpr ⟨h, decide_eq_true hf⟩)
  exact ⟨l, hsub.mem hl, hline⟩

end Outline

end AutoItServer
