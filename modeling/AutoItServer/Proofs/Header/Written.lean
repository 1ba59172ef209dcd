import AutoItServer.Header.Reader
import AutoItServer.Header.Writer
import AutoItServer.Proofs.Data.OrderedMap
import AutoItServer.Proofs.Text.Class

/-!
A fresh header is read back as it was meant.

A header is written and read line by line. Each line that is written is a labelled line, the line of
a further parameter, or a rule that ends every field.

* `Header.labelled?_labelLine`: a labelled line is read as its label and its text.
* `Header.labelled?_of_not_letter`: a line without a letter behind its mark has no label.
* `Header.paramEntry?_paramLine`: the line of a parameter is read as its name and what is said about
  it.
* `Header.labelled?_furtherLine`: the line of a further parameter has no label.
* `Progress.foldl_opening`, `Progress.foldl_paramLines`, `Progress.foldl_ends`: the parts of a
  header, read one after another.
* `read_generate` (**the round trip**): the header of every function, read back.
-/

namespace AutoItServer

/-- No letter or digit of a name ends a line. -/
lemma lf_not_isWord : ¬ isWord '\n' := by decide

namespace Header

variable {label text gap rest : Text} {c : Char}

/-! ### Labelled lines -/

/-- A label: letters and spaces, with a letter at either end. -/
structure IsLabel (label : Text) : Prop where
  chars : ∀ c ∈ label, isLabelChar c
  solid : Text.Solid label

instance (label : Text) : Decidable (IsLabel label) :=
  decidable_of_iff (label.all isLabelChar ∧ Text.Solid label)
    ⟨fun h => ⟨List.all_eq_true.mp h.1, h.2⟩, fun h => ⟨List.all_eq_true.mpr h.chars, h.solid⟩⟩

lemma IsLabel.exists_cons (h : IsLabel label) :
    ∃ first word, label = first :: word ∧ first.isAlpha := by
  obtain ⟨⟨first, hhead, hfirst⟩, -⟩ := h.solid
  obtain ⟨word, rfl⟩ := List.head?_eq_some_iff.mp hhead
  refine ⟨first, word, rfl, ?_⟩
  rcases Bool.or_eq_true_iff.mp (h.chars first List.mem_cons_self) with hletter | hspace
  · exact hletter
  · rw [beq_iff_eq] at hspace
    exact absurd (hspace ▸ by decide) hfirst

lemma isIndent_of_isAlpha (h : c.isAlpha) : ¬ isIndent c := by
  rw [isIndent, Bool.or_eq_true, beq_iff_eq, beq_iff_eq]
  rintro (rfl | rfl) <;> exact absurd h (by decide)

lemma isBlank_of_mem_space : ∀ c ∈ [' '], AutoItServer.isBlank c :=
  List.forall_mem_singleton.mpr (by decide)

lemma trim_space (t : Text) : Text.trim (' ' :: t) = Text.trim t :=
  Text.trim_append isBlank_of_mem_space t

/-- What stands behind the colon of a labelled line. -/
def shown (text : Text) : Text :=
  if text.isEmpty then [] else ' ' :: text

lemma trim_shown (text : Text) : Text.trim (shown text) = Text.trim text := by
  cases text with
  | nil => rfl
  | cons c text => exact trim_space (c :: text)

lemma lf_not_mem_shown (h : '\n' ∉ text) : '\n' ∉ shown text := by
  rw [shown]
  split <;> simp [h]

/-- A labelled line, part by part in the order in which it is read. -/
lemma labelled?_eq_some {line rest leader : Text} (hmark : line.dropWhile isIndent = ';' :: rest)
    (hlabel : (rest.dropWhile isIndent).takeWhile isLabelChar = label)
    (hfirst : label.head?.any Char.isAlpha)
    (hdot : ((rest.dropWhile isIndent).drop label.length).dropWhile isIndent = '.' :: leader)
    (hcolon : (leader.dropWhile (· == '.')).dropWhile isIndent = ':' :: text)
    (htext : '\n' ∉ text) :
    labelled? line = some (Text.trim label, Text.trim text) := by
  simp [labelled?, hmark, hlabel, hfirst, hdot, hcolon, htext]

/-- The parts of a labelled line that is written. -/
lemma labelLine_eq (label text : Text) : ∃ dots, labelLine label text =
    ';' :: ' ' :: (label ++ ' ' :: '.' :: (List.replicate dots '.' ++ ':' :: shown text)) := by
  obtain ⟨dots, hdots⟩ : ∃ dots, max (14 - label.length) 1 = dots + 1 :=
    ⟨_, (Nat.succ_pred (by omega)).symm⟩
  refine ⟨dots, ?_⟩
  rw [labelLine, hdots]
  exact congrArg (';' :: ' ' :: ·) (List.append_assoc label _ _)

/-- **A labelled line** is read as its label and its text. -/
lemma labelled?_labelLine (hlabel : IsLabel label) (htext : '\n' ∉ text) :
    labelled? (labelLine label text) = some (label, Text.trim text) := by
  obtain ⟨first, word, rfl, hfirst⟩ := hlabel.exists_cons
  obtain ⟨dots, hline⟩ := labelLine_eq (first :: word) text
  let leader : Text := List.replicate dots '.' ++ ':' :: shown text
  let labelled : Text := first :: word ++ ' ' :: '.' :: leader
  have hmark : (labelLine (first :: word) text).dropWhile isIndent = ';' :: ' ' :: labelled :=
    hline ▸ rfl
  have hblank : (' ' :: labelled).dropWhile isIndent = labelled :=
    List.dropWhile_cons_of_neg (isIndent_of_isAlpha hfirst)
  have hletter : (first :: word ++ [' ']).head?.any Char.isAlpha := hfirst
  have htake : labelled.takeWhile isLabelChar = first :: word ++ [' '] :=
    List.takeWhile_append_of_pos hlabel.chars
  have hdrop : labelled.drop (first :: word ++ [' ']).length = '.' :: leader := by
    rw [show labelled = first :: word ++ [' '] ++ '.' :: leader from
      List.append_cons (first :: word) ' ' _, List.drop_left]
  have hdot : (((' ' :: labelled).dropWhile isIndent).drop
        (first :: word ++ [' ']).length).dropWhile isIndent =
      '.' :: leader := by
    rw [hblank, hdrop]
    rfl
  have hcolon : (leader.dropWhile (· == '.')).dropWhile isIndent = ':' :: shown text := by
    rw [List.dropWhile_append_of_pos fun c hc => beq_iff_eq.mpr (List.eq_of_mem_replicate hc)]
    rfl
  have htrim : Text.trim (first :: word ++ [' ']) = first :: word := by
    rw [Text.trim, hlabel.solid.trimStart_append, Text.trimEnd_append isBlank_of_mem_space]
    exact hlabel.solid.trimEnd_append []
  rw [labelled?_eq_some hmark (hblank.symm ▸ htake) hletter hdot hcolon (lf_not_mem_shown htext),
    htrim, trim_shown]

/-- **A line without a letter** behind its mark has no label. -/
lemma labelled?_of_not_letter (hgap : ∀ x ∈ gap, isIndent x) (hc : ¬ c.isAlpha)
    (hindent : ¬ isIndent c) (rest : Text) : labelled? (';' :: (gap ++ c :: rest)) = none := by
  have hblank : (gap ++ c :: rest).dropWhile isIndent = c :: rest := by
    rw [List.dropWhile_append_of_pos hgap, List.dropWhile_cons_of_neg hindent]
  have hlabel : (c :: rest).takeWhile isLabelChar = [] := by
    refine List.takeWhile_cons_of_neg fun h => ?_
    rcases Bool.or_eq_true_iff.mp h with h | h
    · exact hc h
    · rw [beq_iff_eq] at h
      exact hindent (h ▸ rfl)
  have hmark : (';' :: (gap ++ c :: rest)).dropWhile isIndent = ';' :: (gap ++ c :: rest) := rfl
  simp only [labelled?, hmark, hblank, hlabel]
  rfl

/-! ### What is said about a parameter -/

/-- A parameter that is written on one line. -/
structure OneLine (p : Parameter) : Prop where
  name : '\n' ∉ p.name
  default : ∀ value ∈ p.default, '\n' ∉ value

/-- A parameter that a header can name: it has a `$` name, and its default value is on one line. -/
structure Nameable (p : Parameter) : Prop where
  name : ∃ word, word ≠ [] ∧ (∀ c ∈ word, isWord c) ∧ p.name = '$' :: word
  default : ∀ value ∈ p.default, '\n' ∉ value

lemma Nameable.oneLine {p : Parameter} (h : Nameable p) : OneLine p where
  name := by
    obtain ⟨word, -, hword, hname⟩ := h.name
    rw [hname, List.mem_cons]
    rintro (hdollar | hlf)
    · exact absurd hdollar (by decide)
    · exact lf_not_isWord (hword _ hlf)
  default := h.default

lemma Nameable.solid_name {p : Parameter} (h : Nameable p) : Text.Solid p.name := by
  obtain ⟨word, -, hword, hname⟩ := h.name
  refine hname ▸ Text.solid_of_forall_not_isBlank (List.cons_ne_nil '$' word) ?_
  exact List.forall_mem_cons.mpr ⟨by decide, fun c hc => not_isBlank_of_isWord (hword c hc)⟩

lemma paramText_eq (p : Parameter) : paramText p =
    (if p.byRef then "[in/out] ".toList else []) ++
      (if p.default.isSome then "[optional] ".toList else []) ++
      "A value.".toList ++ p.default.elim [] fun value => " Default is ".toList ++
        value ++ ['.'] := by
  rw [paramText]
  cases p.default <;> rfl

/-- What is said about a parameter ends with a dot. -/
lemma exists_paramText_eq_concat (p : Parameter) : ∃ t, paramText p = t ++ ['.'] := by
  rw [paramText_eq]
  cases p.default with
  | none => exact ⟨_, (List.append_nil _).trans (List.append_assoc _ "A value".toList ['.']).symm⟩
  | some value => exact ⟨_, (List.append_assoc _ _ _).symm⟩

/-- What is said about a parameter starts with a bracket or a letter, and ends with a dot. -/
lemma solid_paramText (p : Parameter) : Text.Solid (paramText p) := by
  constructor
  · rw [paramText_eq]
    cases p.byRef <;> cases p.default <;> exact ⟨_, rfl, by decide⟩
  · obtain ⟨t, ht⟩ := exists_paramText_eq_concat p
    exact ⟨'.', ht ▸ List.getLast?_concat, by decide⟩

lemma lf_not_mem_paramText {p : Parameter} (h : OneLine p) : '\n' ∉ paramText p := by
  rw [paramText_eq]
  cases hdefault : p.default with
  | none => cases p.byRef <;> simp
  | some value =>
    have hvalue : '\n' ∉ value := h.default value hdefault
    cases p.byRef <;> simp [hvalue]

lemma dropQualifiers_dollar (fuel : Nat) (rest : Text) :
    dropQualifiers fuel ('$' :: rest) = '$' :: rest := by
  cases fuel <;> rfl

/-- The parts of the line of a parameter. -/
lemma paramLine_eq (p : Parameter) :
    ∃ width, paramLine p = p.name ++
      (' ' :: List.replicate width ' ' ++ '-' :: ' ' :: paramText p) := by
  refine ⟨20 - p.name.length, ?_⟩
  rw [← List.replicate_succ, List.replicate_succ']
  simp [paramLine, run]

/-- What a line documents, part by part in the order in which it is read. -/
lemma paramEntry?_eq_some {word doc : Text} (hne : word ≠ []) (hword : ∀ c ∈ word, isWord c)
    (hgap : ∀ c ∈ gap, c ≠ '-') (hc : ¬ isWord c) (hdash : c ≠ '-') (hdoc : '\n' ∉ doc) :
    paramEntry? ('$' :: (word ++ (c :: gap ++ '-' :: doc))) =
      some ('$' :: word, Text.trim doc) := by
  have htake : (word ++ (c :: gap ++ '-' :: doc)).takeWhile isWord = word := by
    rw [List.takeWhile_append_of_pos hword, List.cons_append, List.takeWhile_cons_of_neg hc,
      List.append_nil]
  have hdrop : (c :: gap ++ '-' :: doc).dropWhile (· ≠ '-') = '-' :: doc := by
    rw [List.dropWhile_append_of_pos (by simpa [hdash] using hgap)]
    rfl
  simp only [ paramEntry?, dropQualifiers_dollar, htake, List.drop_left, hdrop]
  simp [hne, hdoc]

/-- **The line of a parameter** is read as its name and what is said about it. -/
lemma paramEntry?_paramLine {p : Parameter} (h : Nameable p) :
    paramEntry? (paramLine p) = some (p.name, paramText p) := by
  obtain ⟨word, hne, hword, hname⟩ := h.name
  obtain ⟨width, hline⟩ := paramLine_eq p
  have hgap : ∀ c ∈ List.replicate width ' ', c ≠ '-' :=
    fun c hc => List.eq_of_mem_replicate hc ▸ by decide
  have hlf : '\n' ∉ ' ' :: paramText p := by
    simpa using lf_not_mem_paramText h.oneLine
  rw [hline, hname]
  refine (paramEntry?_eq_some hne hword hgap (by decide) (by decide) hlf).trans ?_
  rw [trim_space, (solid_paramText p).trim_eq]

lemma solid_paramLine {p : Parameter} (h : Text.Solid p.name) : Text.Solid (paramLine p) := by
  rw [paramLine, List.append_assoc p.name, List.append_assoc p.name]
  exact h.append (solid_paramText p) _

lemma lf_not_mem_paramLine {p : Parameter} (h : OneLine p) : '\n' ∉ paramLine p := by
  obtain ⟨width, hline⟩ := paramLine_eq p
  simp [hline, h.name, lf_not_mem_paramText h]

/-! ### The syntax line -/

lemma lf_not_mem_render {p : Parameter} (h : OneLine p) : '\n' ∉ p.render := by
  have hname := h.name
  rw [Parameter.render]
  cases hdefault : p.default with
  | none => cases p.byRef <;> cases p.isConst <;> simp [hname]
  | some value =>
    have hvalue : '\n' ∉ value := h.default value hdefault
    cases p.byRef <;> cases p.isConst <;> simp [hname, hvalue]

lemma lf_not_mem_syntaxParams {params : List Parameter} (h : ∀ p ∈ params, OneLine p)
    (first : Bool) :
    '\n' ∉ syntaxParams first params := by
  induction params generalizing first with
  | nil => exact List.not_mem_nil
  | cons p params ih =>
    obtain ⟨hp, hparams⟩ := List.forall_mem_cons.mp h
    have hrender : '\n' ∉ { p with isConst := false }.render :=
      lf_not_mem_render ⟨hp.name, hp.default⟩
    have hbracket : '\n' ∉ (if p.default.isSome then ['['] else []) := by split <;> decide
    have hcomma : '\n' ∉ (if first then [] else ", ".toList) := by split <;> decide
    simp only [syntaxParams, List.mem_append, hbracket, hcomma, hrender, ih hparams, or_self,
      not_false_iff]

variable {name : Text} {params : List Parameter}

lemma lf_not_mem_syntaxFor (hname : '\n' ∉ name) (h : ∀ p ∈ params, OneLine p) :
    '\n' ∉ syntaxFor name params := by
  simp [syntaxFor, run, hname, lf_not_mem_syntaxParams h]

lemma solid_syntaxFor (hname : Text.Solid name) (params : List Parameter) :
    Text.Solid (syntaxFor name params) := by
  have hclosed : Text.Solid [')'] := by decide
  rw [syntaxFor, List.append_assoc name, List.append_assoc name]
  exact hname.append hclosed _

/-! ### Reading line by line -/

namespace Progress

variable {p : Progress} {line : Text}

lemma step_labelLine (hlabel : IsLabel label) (htext : '\n' ∉ text) (p : Progress) :
    p.step (labelLine label text) =
      { p with field := .ofLabel label, param := none }.take true (Text.trim text) := by
  rw [step, labelled?_labelLine hlabel htext]

/-- A line after which no field goes on. -/
def Ends (line : Text) : Prop :=
  ∀ p : Progress, p.step line = { p with field := .other, param := none }

lemma ends_labelLine (hlabel : IsLabel label) (hfield : Field.ofLabel label = .other)
    (htext : '\n' ∉ text) :
    Ends (labelLine label text) := by
  intro p
  rw [step_labelLine hlabel htext, hfield]
  rfl

lemma ends_of_hash (hlabel : labelled? line = none) (hbody : body line = '#' :: rest) :
    Ends line := by
  intro p
  rw [step, hlabel, hbody]
  rfl

lemma ends_of_equals (hlabel : labelled? line = none) (hbody : body line = '=' :: '=' :: rest) :
    Ends line := by
  intro p
  rw [step, hlabel, hbody]
  rfl

lemma foldl_ends {lines : List Text} (hne : lines ≠ []) (h : ∀ line ∈ lines, Ends line)
    (p : Progress) :
    lines.foldl step p = { p with field := .other, param := none } := by
  induction lines generalizing p with
  | nil => exact absurd rfl hne
  | cons line lines ih =>
    obtain ⟨hline, hlines⟩ := List.forall_mem_cons.mp h
    rw [List.foldl_cons, hline p]
    cases lines with
    | nil => rfl
    | cons next lines => rw [ih (List.cons_ne_nil next lines) hlines]

end Progress

/-! ### The parts of a fresh header -/

/-- The lines down to the syntax line. -/
def opening (name : Text) (params : List Parameter) : List Text :=
  ["; #FUNCTION# ".toList ++ run 116 '=',
    labelLine "Name".toList name,
    labelLine "Description".toList [],
    labelLine "Syntax".toList (syntaxFor name params)]

/-- The lines behind those for the parameters. -/
def closing : List Text :=
  ["Return values", "Author", "Modified", "Remarks", "Related", "Link"].map
    (fun label => labelLine label.toList []) ++
  [labelLine "Example".toList "No".toList, "; ".toList ++ run 127 '=']

/-- The line for a parameter behind the first one. -/
def furtherLine (q : Parameter) : Text :=
  ';' :: run 18 ' ' ++ paramLine q

lemma generate_eq (name : Text) (params : List Parameter) :
    generate name params = opening name params ++ paramLines params ++ closing :=
  List.append_assoc (opening name params ++ paramLines params) _ _

lemma paramLines_cons (p : Parameter) (params : List Parameter) :
    paramLines (p :: params) =
      labelLine "Parameters".toList (paramLine p) :: params.map furtherLine := rfl

lemma isIndent_of_mem_spaces : ∀ c ∈ run 18 ' ', isIndent c :=
  List.all_eq_true.mp (by decide)

/-- The line of a further parameter has no label if the parameter does not start with a letter. -/
lemma labelled?_furtherLine {q : Parameter} (hname : Text.Solid q.name)
    (hletter : ¬ q.name.head?.any Char.isAlpha) : labelled? (furtherLine q) = none := by
  obtain ⟨⟨c, hc, hfirst⟩, -⟩ := hname
  obtain ⟨cs, hcons⟩ := List.head?_eq_some_iff.mp hc
  rw [furtherLine, paramLine, hcons]
  refine labelled?_of_not_letter isIndent_of_mem_spaces ?_
    (fun hindent => hfirst (isBlank_of_isIndent hindent)) _
  rwa [hcons] at hletter

/-- What a fresh header says about a parameter, by the name under which it is looked up. -/
def entryOf (q : Parameter) : Text × Text :=
  (Text.lower q.name, paramText q)

namespace Progress

variable {p : Progress} {q : Parameter} {ps : List Parameter}

lemma ends_functionRule : Ends ("; #FUNCTION# ".toList ++ run 116 '=') :=
  ends_of_hash (by decide) (show _ = '#' :: ("FUNCTION# ".toList ++ run 116 '=') by decide)

lemma ends_of_mem_closing : ∀ line ∈ closing, Ends line := by
  have hlabels : ∀ label ∈ ["Return values", "Author", "Modified", "Remarks", "Related", "Link"],
      IsLabel label.toList ∧ Field.ofLabel label.toList = .other := by decide
  have hrule : Ends ("; ".toList ++ run 127 '=') :=
    ends_of_equals (by decide) (show _ = '=' :: '=' :: run 125 '=' by decide)
  intro line hline
  rcases List.mem_append.mp hline with hline | hline
  · obtain ⟨label, hlabel, rfl⟩ := List.mem_map.mp hline
    exact ends_labelLine (hlabels label hlabel).1 (hlabels label hlabel).2 (by decide)
  · rcases List.mem_pair.mp hline with rfl | rfl
    · exact ends_labelLine (by decide) (by decide) (by decide)
    · exact hrule

lemma step_nameLine (hsolid : Text.Solid text) (hlf : '\n' ∉ text) (p : Progress) :
    p.step (labelLine "Name".toList text) =
      { p with header := { p.header with name := some text }, field := .name, param := none } := by
  have hfield : Field.ofLabel "Name".toList = .name := rfl
  rw [step_labelLine (by decide) hlf, hsolid.trim_eq, hfield]
  simp [take, hsolid.ne_nil]

lemma step_syntaxLine (hsolid : Text.Solid text) (hlf : '\n' ∉ text) (p : Progress) :
    p.step (labelLine "Syntax".toList text) =
      { p with
        header := { p.header with syntaxLine := some text }
        field := .syntaxLine
        param := none } := by
  have hfield : Field.ofLabel "Syntax".toList = .syntaxLine := rfl
  rw [step_labelLine (by decide) hlf, hsolid.trim_eq, hfield]
  simp [take, hsolid.ne_nil]

lemma step_descriptionLine (p : Progress) :
    p.step (labelLine "Description".toList []) =
      { p with field := .description, param := none } := by
  have hfield : Field.ofLabel "Description".toList = .description := rfl
  rw [step_labelLine (by decide) (by decide), hfield]
  rfl

/-- **The opening** gives the name and the syntax line; the description stays as it is. -/
lemma foldl_opening (hsolid : Text.Solid name) (hname : '\n' ∉ name)
    (hparams : ∀ q ∈ params, OneLine q) (p : Progress) : (opening name params).foldl step p =
      { p with
        header := { p.header with name := some name, syntaxLine := some (syntaxFor name params) }
        field := .syntaxLine
        param := none } := by
  rw [opening, List.foldl_cons, ends_functionRule, List.foldl_cons, step_nameLine hsolid hname,
    List.foldl_cons, step_descriptionLine, List.foldl_cons,
    step_syntaxLine (solid_syntaxFor hsolid params) (lf_not_mem_syntaxFor hname hparams),
    List.foldl_nil]

/-! ### The parameters -/

/-- Notes a parameter and what is said about it. -/
def note (p : Progress) (e : Text × Text) : Progress :=
  { p with header := { p.header with params := p.header.params.insert e.1 e.2 }, param := some e.1 }

lemma take_paramLine (hq : Nameable q) (hfield : p.field = .parameters) (isLabelled : Bool) :
    p.take isLabelled (paramLine q) = p.note (entryOf q) := by
  simp [take, hfield, paramEntry?_paramLine hq, note, entryOf]

lemma step_parametersLine (hq : Nameable q) (p : Progress) :
    p.step (labelLine "Parameters".toList (paramLine q)) =
      { p with field := .parameters }.note (entryOf q) := by
  have hfield : Field.ofLabel "Parameters".toList = .parameters := rfl
  rw [step_labelLine (by decide) (lf_not_mem_paramLine hq.oneLine),
    (solid_paramLine hq.solid_name).trim_eq, hfield, take_paramLine hq rfl]
  rfl

lemma step_furtherLine (hq : Nameable q) (hfield : p.field = .parameters) :
    p.step (furtherLine q) = p.note (entryOf q) := by
  obtain ⟨word, -, -, hname⟩ := hq.name
  obtain ⟨rest, hline⟩ : ∃ rest, paramLine q = '$' :: rest := ⟨_, by rw [paramLine, hname]; rfl⟩
  have hlabel : labelled? (furtherLine q) = none :=
    labelled?_furtherLine hq.solid_name (by simp [hname])
  have hbody : body (furtherLine q) = paramLine q := by
    change Text.trim (run 18 ' ' ++ paramLine q) = paramLine q
    rw [Text.trim_append fun c hc => isBlank_of_isIndent (isIndent_of_mem_spaces c hc),
      (solid_paramLine hq.solid_name).trim_eq]
  -- no `$` ends a field, so that the line is read into the field of the parameters
  have hstep : p.step (furtherLine q) = p.take false (paramLine q) := by
    rw [step, hlabel, hbody, hline]
    rfl
  rw [hstep, take_paramLine hq hfield]

lemma foldl_note (entries : List (Text × Text)) (p : Progress) : ∃ param, entries.foldl note p =
    { p with header := { p.header with params := p.header.params.insertAll entries }, param } := by
  induction entries generalizing p with
  | nil => exact ⟨p.param, rfl⟩
  | cons e entries ih =>
    obtain ⟨param, hfold⟩ := ih (p.note e)
    exact ⟨param, hfold⟩

lemma foldl_furtherLine (hps : ∀ q ∈ ps, Nameable q) (hfield : p.field = .parameters) :
    (ps.map furtherLine).foldl step p = (ps.map entryOf).foldl note p := by
  induction ps generalizing p with
  | nil => rfl
  | cons q ps ih =>
    obtain ⟨hq, hps⟩ := List.forall_mem_cons.mp hps
    have hnoted : (p.note (entryOf q)).field = .parameters := hfield
    rw [List.map_cons, List.foldl_cons, step_furtherLine hq hfield, ih hps hnoted, List.map_cons,
      List.foldl_cons]

/-- **The lines of the parameters** note each of them. -/
lemma foldl_paramLines (hps : ∀ q ∈ ps, Nameable q) (p : Progress) :
    ∃ param, (paramLines ps).foldl step p =
    { p with
      header := { p.header with params := p.header.params.insertAll (ps.map entryOf) }
      field := .parameters
      param } := by
  cases ps with
  | nil =>
    have hfield : Field.ofLabel "Parameters".toList = .parameters := rfl
    refine ⟨none, ?_⟩
    rw [paramLines, List.foldl_cons, step_labelLine (by decide) (by decide), hfield]
    rfl
  | cons q ps =>
    obtain ⟨hq, hps⟩ := List.forall_mem_cons.mp hps
    rw [paramLines_cons, List.foldl_cons, step_parametersLine hq, foldl_furtherLine hps rfl]
    exact foldl_note ((q :: ps).map entryOf) { p with field := .parameters }

/-- A fresh header, read behind anything. -/
lemma foldl_generate (hsolid : Text.Solid name) (hname : '\n' ∉ name) (hps : ∀ q ∈ ps, Nameable q)
    (p : Progress) : (generate name ps).foldl step p =
      { header :=
          { p.header with
            name := some name
            syntaxLine := some (syntaxFor name ps)
            params := p.header.params.insertAll (ps.map entryOf) }
        description := p.description
        field := .other
        param := none } := by
  obtain ⟨param, hparams⟩ := foldl_paramLines hps
    { p with
      header := { p.header with name := some name, syntaxLine := some (syntaxFor name ps) }
      field := .syntaxLine
      param := none }
  rw [generate_eq, List.foldl_append, List.foldl_append,
    foldl_opening hsolid hname (fun q hq => (hps q hq).oneLine), hparams,
    foldl_ends (by decide) ends_of_mem_closing]

end Progress

/-! ### The round trip -/

/-- **A fresh header is read back**: under the name and the syntax line it was written with, without
a description, and with one entry for each parameter. -/
theorem read_generate (hname : name ≠ []) (htrim : Text.trim name = name) (hlf : '\n' ∉ name)
    (hparams : ∀ p ∈ params, Nameable p)
    (hdistinct : (params.map fun p => Text.lower p.name).Nodup) :
    read (generate name params) =
      { name := some name
        description := none
        syntaxLine := some (syntaxFor name params)
        params := ⟨params.map fun p =>
          (Text.lower p.name,
            (if p.byRef then "[in/out] ".toList else []) ++
              (if p.default.isSome then "[optional] ".toList else []) ++ "A value.".toList ++
              p.default.elim [] fun value => " Default is ".toList ++ value ++ ['.'])⟩ } := by
  have hentries : OrderedMap.ofList (params.map entryOf) = ⟨params.map entryOf⟩ :=
    OrderedMap.ofList_of_nodup (by simpa [entryOf, Function.comp_def] using hdistinct)
  have hread := Progress.foldl_generate (Text.solid_of_trim_eq hname htrim) hlf hparams
    ⟨blank, [], .other, none⟩
  simp only [← paramText_eq]
  rw [read, hread]
  exact congrArg (Header.mk _ _ _) hentries

/-- Parameters whose default values hold the marks that a line is read by. -/
def markedParams : List Parameter :=
  [⟨"$aGrid".toList, true, false, none⟩,
    ⟨"$sÄrea".toList, false, true, some "'; Name .: $aGrid - x'".toList⟩,
    ⟨"$iStep".toList, true, false, some "-1.5".toList⟩]

lemma nameable_of_mem_markedParams : ∀ p ∈ markedParams, Nameable p := by
  have hvalues : ∀ p ∈ markedParams, ∀ value ∈ p.default, '\n' ∉ value := by decide
  intro p hp
  refine ⟨?_, hvalues p hp⟩
  simp only [markedParams, List.mem_cons, List.not_mem_nil, or_false] at hp
  rcases hp with rfl | rfl | rfl
  · exact ⟨"aGrid".toList, by decide, List.all_eq_true.mp (by decide), rfl⟩
  · exact ⟨"sÄrea".toList, by decide, List.all_eq_true.mp (by decide), rfl⟩
  · exact ⟨"iStep".toList, by decide, List.all_eq_true.mp (by decide), rfl⟩

/-- The marks in the default values are read as text of the values. -/
theorem read_generate_markedParams :
    (∀ p ∈ markedParams, Nameable p) ∧ (markedParams.map fun p => Text.lower p.name).Nodup ∧
      read (generate "_Grid_Set".toList markedParams) = {
        name := some "_Grid_Set".toList
        description := none
        syntaxLine := some
          "_Grid_Set(ByRef $aGrid[, $sÄrea = '; Name .: $aGrid - x'[, ByRef $iStep = -1.5]])".toList
        params := ⟨[("$agrid".toList, "[in/out] A value.".toList),
          ("$särea".toList, "[optional] A value. Default is '; Name .: $aGrid - x'.".toList),
          ("$istep".toList, "[in/out] [optional] A value. Default is -1.5.".toList)]⟩ } := by
  have hdistinct : (markedParams.map fun p => Text.lower p.name).Nodup := by decide
  refine ⟨nameable_of_mem_markedParams, hdistinct, ?_⟩
  rw [read_generate (by decide) (by decide) (by decide) nameable_of_mem_markedParams hdistinct]
  decide +kernel

end Header

end AutoItServer
