import AutoItServer.Proofs.Header.Written

/-!
A fresh header, read behind other lines and for parameters of any text.

A parameter may be any text, so that its line may look like a labelled line. What is read of the
name and the description depends only on these and on the field that a line goes on with, not on the
parameters noted so far.

* `Progress.step_eq` (**one line**): what it does to the name and the description.
* `Progress.Alike`, `Alike.foldl`: readers that agree on the name, the description and the field go
  on to agree.
* `read_append_generate`: behind lines that say nothing a fresh header is read like the fresh header
  alone.
* `isSome_name_read_generate`, `description_read_generate`: it gives a name, and no description
  unless the line of a further parameter has a label.
* `Header.Plain`, `plain_of_mem_generate`: each of its lines is a `;` line that ends in no blank.
-/

namespace AutoItServer

namespace Header

variable {label text name : Text} {params : List Parameter}

namespace Progress

variable {p q : Progress} {line : Text} {lines : List Text}

/-! ### The name and the description -/

/-- Before the first line. -/
def start : Progress :=
  ⟨blank, [], .other, none⟩

/-- The header that has been read. -/
def finish (p : Progress) : Header :=
  if p.description.isEmpty then p.header else { p.header with description := some p.description }

lemma read_eq (lines : List Text) : read lines = (lines.foldl step start).finish := rfl

lemma name_finish (p : Progress) : p.finish.name = p.header.name := by
  rw [finish]
  split <;> rfl

lemma description_finish (p : Progress) : p.finish.description =
    if p.description.isEmpty then p.header.description else some p.description := by
  rw [finish]
  split <;> rfl

/-- **What a text does** to the field that it is read into. -/
lemma take_eq (p : Progress) (isLabelled : Bool) (text : Text) : ∃ syntaxLine params param,
    p.take isLabelled text =
      { header :=
          { name := if p.field = .name ∧ isLabelled ∧ text ≠ [] then some text else p.header.name
            description := p.header.description
            syntaxLine
            params }
        description := if p.field = .description then joinParts p.description text
          else p.description
        field := p.field
        param } := by
  obtain ⟨header, description, field, param⟩ := p
  cases field with
  | name =>
    refine ⟨header.syntaxLine, header.params, param, ?_⟩
    cases isLabelled <;> cases text <;> rfl
  | syntaxLine =>
    refine ⟨if isLabelled ∧ text ≠ [] then some text else header.syntaxLine,
      header.params, param, ?_⟩
    cases isLabelled <;> cases text <;> rfl
  | description => exact ⟨header.syntaxLine, header.params, param, rfl⟩
  | other => exact ⟨header.syntaxLine, header.params, param, rfl⟩
  | parameters =>
    dsimp only [take]
    split
    · exact ⟨_, _, _, rfl⟩
    · exact ⟨_, _, _, rfl⟩
    · exact ⟨_, _, _, rfl⟩

/-- The text of a line, behind its label if it has one. -/
def textOf (line : Text) : Text :=
  (labelled? line).elim (body line) Prod.snd

/-- Whether a line without a label ends every field. -/
def isRule (text : Text) : Bool :=
  ['#'].isPrefixOf text || ['=', '='].isPrefixOf text

lemma isRule_iff : isRule text ↔ (∃ tail, text = '#' :: tail) ∨
    ∃ tail, text = '=' :: '=' :: tail := by
  rw [isRule, Bool.or_eq_true, List.isPrefixOf_iff_prefix, List.isPrefixOf_iff_prefix]
  simp only [List.IsPrefix, List.cons_append, List.nil_append, eq_comm]

/-- The field that a line is read into, if the lines before it were read into `field`. -/
def fieldOf (field : Field) (line : Text) : Field :=
  (labelled? line).elim (if isRule (body line) then .other else field) fun entry => .ofLabel entry.1

/-- A line is read into its field. -/
lemma step_eq_take (p : Progress) (line : Text) : ∃ param,
    p.step line = { p with field := fieldOf p.field line, param }.take (labelled? line).isSome
      (textOf line) := by
  rw [step, fieldOf, textOf]
  rcases labelled? line with - | ⟨label, text⟩
  · dsimp only [Option.elim]
    generalize body line = text
    split
    next tail => exact ⟨none, by rw [if_pos (isRule_iff.mpr (.inl ⟨tail, rfl⟩))]; rfl⟩
    next tail => exact ⟨none, by rw [if_pos (isRule_iff.mpr (.inr ⟨tail, rfl⟩))]; rfl⟩
    next hhash hequals =>
      have hrule : ¬ isRule text := by
        rw [isRule_iff]
        rintro (⟨tail, rfl⟩ | ⟨tail, rfl⟩)
        · exact hhash tail rfl
        · exact hequals tail rfl
      exact ⟨p.param, by rw [if_neg hrule]; rfl⟩
  · exact ⟨none, rfl⟩

/-- **What a line does** to the name and the description. -/
lemma step_eq (p : Progress) (line : Text) : ∃ syntaxLine params param,
    p.step line =
      { header :=
          { name :=
              if fieldOf p.field line = .name ∧ (labelled? line).isSome ∧ textOf line ≠ [] then
                some (textOf line)
              else p.header.name
            description := p.header.description
            syntaxLine
            params }
        description :=
          if fieldOf p.field line = .description then joinParts p.description (textOf line)
          else p.description
        field := fieldOf p.field line
        param } := by
  obtain ⟨param, hstep⟩ := step_eq_take p line
  exact hstep ▸ take_eq _ _ _

/-! ### Readers that agree -/

/-- Two readers that agree on the name, the description and the field. -/
structure Alike (p q : Progress) : Prop where
  name : p.header.name = q.header.name
  given : p.header.description = q.header.description
  description : p.description = q.description
  field : p.field = q.field

lemma Alike.step (h : Alike p q) (line : Text) : Alike (p.step line) (q.step line) := by
  obtain ⟨_, _, _, hp⟩ := step_eq p line
  obtain ⟨_, _, _, hq⟩ := step_eq q line
  rw [hp, hq, h.field, h.name, h.description]
  exact ⟨rfl, h.given, rfl, rfl⟩

/-- **Lines keep the agreement.** -/
lemma Alike.foldl (h : Alike p q) (lines : List Text) :
    Alike (lines.foldl Progress.step p) (lines.foldl Progress.step q) := by
  induction lines generalizing p q with
  | nil => exact h
  | cons line lines ih => exact ih (h.step line)

/-- A name that has been read may be replaced, and is not lost. -/
lemma isSome_name_step (h : p.header.name.isSome) (line : Text) :
    (p.step line).header.name.isSome := by
  obtain ⟨_, _, _, hstep⟩ := step_eq p line
  rw [hstep]
  dsimp only
  split
  · rfl
  · exact h

lemma isSome_name_foldl (h : p.header.name.isSome) (lines : List Text) :
    (lines.foldl step p).header.name.isSome := by
  induction lines generalizing p with
  | nil => exact h
  | cons line lines ih => exact ih (isSome_name_step h line)

/-- A line whose label is not that of the description. -/
def Undescribed (line : Text) : Prop :=
  ∀ label text, labelled? line = some (label, text) → Field.ofLabel label ≠ .description

lemma undescribed_labelLine (hlabel : IsLabel label) (hfield : Field.ofLabel label ≠ .description)
    (htext : '\n' ∉ text) : Undescribed (labelLine label text) := by
  intro label' text' hread
  rw [labelled?_labelLine hlabel htext] at hread
  obtain ⟨rfl, -⟩ := Prod.mk.inj (Option.some.inj hread)
  exact hfield

lemma undescribed_furtherLine {r : Parameter} (hname : Text.Solid r.name)
    (hletter : ¬ r.name.head?.any Char.isAlpha) :
    Undescribed (furtherLine r) := by
  intro label text hread
  rw [labelled?_furtherLine hname hletter] at hread
  cases hread

lemma description_step (hline : Undescribed line) (hfield : p.field ≠ .description) :
    (p.step line).finish.description = p.finish.description ∧
    (p.step line).field ≠ .description := by
  obtain ⟨_, _, _, hstep⟩ := step_eq p line
  have hentered : fieldOf p.field line ≠ .description := by
    rw [fieldOf]
    rcases hlabel : labelled? line with - | ⟨label, text⟩
    · rw [Option.elim]
      split
      · nofun
      · exact hfield
    · exact hline label text hlabel
  rw [hstep, description_finish, description_finish]
  exact ⟨by simp only [if_neg hentered], hentered⟩

/-- **Outside of the description** nothing is added to it. -/
lemma description_foldl (hlines : ∀ line ∈ lines, Undescribed line)
    (hfield : p.field ≠ .description) :
    (lines.foldl step p).finish.description = p.finish.description := by
  induction lines generalizing p with
  | nil => rfl
  | cons line lines ih =>
    obtain ⟨hline, hlines⟩ := List.forall_mem_cons.mp hlines
    obtain ⟨hdescription, hfield⟩ := description_step hline hfield
    rw [List.foldl_cons, ih hlines hfield, hdescription]

/-! ### Reading a fresh header -/

lemma Alike.finish (h : Alike p q) : p.finish.name = q.finish.name ∧
    p.finish.description = q.finish.description := by
  refine ⟨by rw [name_finish, name_finish, h.name], ?_⟩
  rw [description_finish, description_finish, h.description, h.given]

/-- Lines that say nothing leave no name and no description. -/
lemma alike_of_isBlank (h : p.finish.isBlank) (hfield : p.field = .other) : Alike p start := by
  rw [finish] at h
  split at h
  next hempty =>
    rw [isBlank, Bool.and_eq_true, Bool.and_eq_true] at h
    exact ⟨Option.isNone_iff_eq_none.mp h.1.1, Option.isNone_iff_eq_none.mp h.1.2,
      List.isEmpty_iff.mp hempty, hfield⟩
  next => simp [isBlank] at h

end Progress

/-- **Behind lines that say nothing** a fresh header is read like the fresh header alone. -/
lemma read_append_generate {old : List Text} (h : (read old).isBlank) (name : Text)
    (params : List Parameter) :
    (read (old ++ generate name params)).name = (read (generate name params)).name ∧
      (read (old ++ generate name params)).description =
        (read (generate name params)).description := by
  let p := old.foldl Progress.step .start
  -- the first line ends the field that the lines above it may have left open
  obtain ⟨rule, lines, hlines, hrule⟩ : ∃ rule lines, generate name params = rule :: lines ∧
      Progress.Ends rule :=
    ⟨_, _, rfl, Progress.ends_functionRule⟩
  have hended : Progress.Alike { p with field := .other, param := none } .start :=
    Progress.alike_of_isBlank h rfl
  have halike : Progress.Alike (p.step rule) (Progress.start.step rule) := by
    rw [hrule p, hrule .start]
    exact hended
  have hread := (halike.foldl lines).finish
  rwa [← List.foldl_cons, ← List.foldl_cons, ← hlines, ← List.foldl_append] at hread

/-- A fresh header gives a name, though it may be another one. -/
lemma isSome_name_read_generate (hsolid : Text.Solid name) (hname : '\n' ∉ name)
    (hparams : ∀ q ∈ params, OneLine q) : (read (generate name params)).name.isSome := by
  rw [Progress.read_eq, Progress.name_finish, generate_eq, List.append_assoc, List.foldl_append,
    Progress.foldl_opening hsolid hname hparams]
  exact Progress.isSome_name_foldl rfl _

/-- **A fresh header has no description**, unless the line of a further parameter has its label. -/
lemma description_read_generate (hsolid : Text.Solid name) (hname : '\n' ∉ name)
    (hparams : ∀ q ∈ params, OneLine q)
    (hfurther : ∀ q ∈ params.tail, Progress.Undescribed (furtherLine q)) :
    (read (generate name params)).description = none := by
  have hlines : ∀ line ∈ paramLines params, Progress.Undescribed line := by
    cases params with
    | nil =>
      refine List.forall_mem_singleton.mpr ?_
      exact Progress.undescribed_labelLine (by decide) (by decide) (by decide)
    | cons q params =>
      rw [paramLines_cons, List.forall_mem_cons]
      refine ⟨Progress.undescribed_labelLine (by decide) (by decide) ?_, ?_⟩
      · exact lf_not_mem_paramLine (hparams q List.mem_cons_self)
      · intro line hline
        obtain ⟨r, hr, rfl⟩ := List.mem_map.mp hline
        exact hfurther r hr
  rw [Progress.read_eq, generate_eq, List.foldl_append, List.foldl_append,
    Progress.foldl_opening hsolid hname hparams,
    Progress.foldl_ends (by decide) Progress.ends_of_mem_closing]
  exact Progress.description_foldl hlines nofun

/-! ### The lines of a fresh header -/

/-- A line that starts with `;`, ends in no blank, and has no line feed. -/
structure Plain (line : Text) : Prop where
  marked : line.head? = some ';'
  solid : Text.Solid line
  oneLine : '\n' ∉ line

instance (line : Text) : Decidable (Plain line) :=
  decidable_of_iff (line.head? = some ';' ∧ Text.Solid line ∧ '\n' ∉ line)
    ⟨fun h => ⟨h.1, h.2.1, h.2.2⟩, fun h => ⟨h.marked, h.solid, h.oneLine⟩⟩

lemma plain_of_solid {line between last : Text} (hline : line = ';' :: (between ++ last))
    (hlast : Text.Solid last) (hlf : '\n' ∉ line) : Plain line := by
  have hmark : Text.Solid [';'] := by decide
  exact ⟨hline ▸ rfl, hline ▸ hmark.append hlast between, hlf⟩

lemma plain_labelLine (hlabel : '\n' ∉ label) (htext : text = [] ∨ Text.Solid text)
    (hlf : '\n' ∉ text) :
    Plain (labelLine label text) := by
  obtain ⟨dots, hline⟩ := labelLine_eq label text
  have honeLine : '\n' ∉ labelLine label text := by
    simp [hline, hlabel, lf_not_mem_shown hlf]
  rcases htext with rfl | htext
  · have hsplit : labelLine label [] =
        ';' :: (' ' :: (label ++ ' ' :: '.' :: List.replicate dots '.') ++ [':']) := by
      simp [hline, shown]
    exact plain_of_solid hsplit (by decide) honeLine
  · have hsplit : labelLine label text =
        ';' :: (' ' :: (label ++ ' ' :: '.' :: (List.replicate dots '.' ++ [':', ' '])) ++
          text) := by
      simp [hline, shown, htext.ne_nil]
    exact plain_of_solid hsplit htext honeLine

lemma plain_furtherLine {q : Parameter} (hname : Text.Solid q.name) (hq : OneLine q) :
    Plain (furtherLine q) := by
  have hlf : '\n' ∉ ';' :: (run 18 ' ' ++ paramLine q) := by
    simp [run, lf_not_mem_paramLine hq]
  exact plain_of_solid rfl (solid_paramLine hname) hlf

lemma plain_of_mem_closing : ∀ line ∈ closing, Plain line := by decide

/-- **The lines of a fresh header** are plain, whatever the parameters are. -/
lemma plain_of_mem_generate (hsolid : Text.Solid name) (hname : '\n' ∉ name)
    (hparams : ∀ q ∈ params, OneLine q)
    (hnames : ∀ q ∈ params, Text.Solid q.name) : ∀ line ∈ generate name params, Plain line := by
  have hopening : ∀ line ∈ opening name params, Plain line := by
    have hsyntax : Text.Solid (syntaxFor name params) := solid_syntaxFor hsolid params
    simp only [opening, List.forall_mem_cons]
    exact ⟨by decide, plain_labelLine (by decide) (.inr hsolid) hname,
      plain_labelLine (by decide) (.inl rfl) (by decide),
      plain_labelLine (by decide) (.inr hsyntax) (lf_not_mem_syntaxFor hname hparams),
      List.forall_mem_nil _⟩
  have hlines : ∀ line ∈ paramLines params, Plain line := by
    cases params with
    | nil => decide
    | cons q params =>
      obtain ⟨hq, hparams⟩ := List.forall_mem_cons.mp hparams
      obtain ⟨hqname, hnames⟩ := List.forall_mem_cons.mp hnames
      rw [paramLines_cons, List.forall_mem_cons]
      refine ⟨plain_labelLine (by decide) (.inr (solid_paramLine hqname)) (lf_not_mem_paramLine hq),
        ?_⟩
      intro line hline
      obtain ⟨r, hr, rfl⟩ := List.mem_map.mp hline
      exact plain_furtherLine (hnames r hr) (hparams r hr)
  rw [generate_eq]
  intro line hline
  rcases List.mem_append.mp hline with hline | hline
  · exact (List.mem_append.mp hline).elim (hopening line) (hlines line)
  · exact plain_of_mem_closing line hline

end Header

end AutoItServer
