import AutoItServer.Settings.Reader
import Mathlib.Data.List.Basic
import Mathlib.Tactic.Lemma

/-!
Each setting is read on its own.

* `IsTextList`, `IsPathList`, `IsExtensionList`: which lists a JSON value stands for, with an
  equation for the reader of each.
* `Shape`: a reader of JSON values with what it has to accept and what holds of every value that it
  gives. The eight fields have five shapes (`Field.shape`).
* `part`: what becomes of one field. Settings and errors are put together from the parts
  (`value_read`, `errors_read`), and `errorsFor_read` finds the errors of one field again among all
  of them.
* `part_of_none`, `part_of_means`, `part_of_not_means`: a field that is absent, right or wrong.
  `part_cases`: there is no fourth case.
* `read_isolated` (**isolation**): a field depends on its own key only. Absent and wrong values give
  the standard one, a wrong value gives one error, errors stand in the order of the fields, and all
  settings are sound.
-/

namespace AutoItServer

lemma Json.nat?_eq_some_iff {j : Json} {n : Nat} : j.nat? = some n ↔ j = .nat n := by
  cases j with
  | int m =>
    cases m with
    | ofNat m => rw [Json.nat?, Json.nat, Option.some.injEq, Json.int.injEq, Int.ofNat.injEq]
    | negSucc m => simp [Json.nat?, Json.nat]
  | _ => simp [Json.nat?, Json.nat]

namespace Settings

variable {j : Json} {ts : List Text}

/-! ### Lists of texts -/

/-- An array of strings without NUL. -/
def IsTextList (j : Json) (ts : List Text) : Prop :=
  j = .arr (ts.map .str) ∧ ∀ t ∈ ts, '\x00' ∉ t

lemma entry?_eq_some_iff {t : Text} : entry? j = some t ↔ j = .str t ∧ '\x00' ∉ t := by
  unfold entry?
  rw [Option.filter_eq_some_iff]
  cases j <;> simp [Json.str?]

lemma entries_map_str (h : ∀ t ∈ ts, '\x00' ∉ t) : entries (ts.map .str) = .ok ts := by
  induction ts with
  | nil => rfl
  | cons t ts ih =>
    obtain ⟨ht, hts⟩ := List.forall_mem_cons.mp h
    rw [List.map_cons, entries, entry?_eq_some_iff.mpr ⟨rfl, ht⟩, ih hts]
    rfl

/-- Entries that can be read are strings. -/
lemma eq_map_str_of_entries {js : List Json} (h : entries js = .ok ts) :
    js = ts.map .str ∧ ∀ t ∈ ts, '\x00' ∉ t := by
  induction js generalizing ts with
  | nil =>
    cases h
    exact ⟨rfl, List.forall_mem_nil _⟩
  | cons j js ih =>
    unfold entries at h
    cases hentry : entry? j with
    | none =>
      rw [hentry] at h
      cases h
    | some t =>
      obtain ⟨rfl, ht⟩ := entry?_eq_some_iff.mp hentry
      cases hrest : entries js with
      | error cause =>
        rw [hentry, hrest] at h
        cases h
      | ok us =>
        rw [hentry, hrest] at h
        cases h
        obtain ⟨rfl, hus⟩ := ih hrest
        exact ⟨rfl, List.forall_mem_cons.mpr ⟨ht, hus⟩⟩

lemma textList_eq_ok_iff : textList j = .ok ts ↔ IsTextList j ts := by
  constructor
  · intro h
    cases j with
    | arr items =>
      exact ⟨congrArg Json.arr (eq_map_str_of_entries h).1, (eq_map_str_of_entries h).2⟩
    | _ => cases h
  · rintro ⟨rfl, hnul⟩
    exact entries_map_str hnul

/-- Search paths, of which the empty ones do not count. -/
def IsPathList (j : Json) (ps : List Path) : Prop :=
  ∃ ts, IsTextList j ts ∧ ps = (ts.filter fun t => !t.isEmpty).map Path.mk

lemma paths_eq_ok_iff {ps : List Path} : paths j = .ok ps ↔ IsPathList j ps := by
  simp only [IsPathList, ← textList_eq_ok_iff, paths]
  cases textList j with
  | error cause => simp [Except.map]
  | ok ts => simp [Except.map, eq_comm]

lemma IsPathList.sound {ps : List Path} (h : IsPathList j ps) :
    ∀ p ∈ ps, p.text ≠ [] ∧ '\x00' ∉ p.text := by
  obtain ⟨ts, hts, rfl⟩ := h
  intro p hp
  obtain ⟨t, ht, rfl⟩ := List.mem_map.mp hp
  obtain ⟨ht, hne⟩ := List.mem_filter.mp ht
  exact ⟨by simpa using hne, hts.2 t ht⟩

/-- Extensions. Dots before them and empty ones do not count, and at least one has to be left. -/
def IsExtensionList (j : Json) (es : List Text) : Prop :=
  es ≠ [] ∧ ∃ ts, IsTextList j ts ∧
    es = (ts.map fun t => t.dropWhile (· == '.')).filter fun t => !t.isEmpty

lemma extensions_eq_ok_iff {es : List Text} : extensions j = .ok es ↔ IsExtensionList j es := by
  simp only [IsExtensionList, ← textList_eq_ok_iff, extensions]
  cases textList j with
  | error cause => simp
  | ok ts =>
    simp only [Except.ok.injEq, exists_eq_left']
    split
    next hnone => simp [List.isEmpty_iff.mp hnone]
    next hsome =>
      rw [Except.ok.injEq, eq_comm]
      refine ⟨fun h => ⟨?_, h⟩, And.right⟩
      rw [h]
      exact mt List.isEmpty_iff.mpr hsome

lemma IsExtensionList.sound {es : List Text} (h : IsExtensionList j es) :
    es ≠ [] ∧ ∀ e ∈ es, e ≠ [] ∧ e.head? ≠ some '.' ∧ '\x00' ∉ e := by
  obtain ⟨hne, ts, hts, rfl⟩ := h
  refine ⟨hne, fun e he => ?_⟩
  obtain ⟨he, hne⟩ := List.mem_filter.mp he
  obtain ⟨t, ht, rfl⟩ := List.mem_map.mp he
  refine ⟨by simpa using hne, fun hdot => ?_,
    fun hnul => hts.2 t ht ((List.dropWhile_sublist _).mem hnul)⟩
  have hhead := List.head?_dropWhile_not (· == '.') t
  rw [hdot] at hhead
  exact absurd hhead (by decide)

/-! ### Single values -/

lemma boolean_eq_ok_iff {b : Bool} : boolean j = .ok b ↔ j = .bool b := by
  cases j <;> simp [boolean, Json.bool?]

lemma positive_eq_ok_iff {n : Nat} : positive j = .ok n ↔ j = .nat n ∧ 1 ≤ n := by
  rw [positive]
  constructor
  · intro h
    split at h
    next m hm =>
      cases h
      exact ⟨Json.nat?_eq_some_iff.mp hm, Nat.succ_pos m⟩
    next => cases h
  · rintro ⟨rfl, hn⟩
    obtain ⟨m, rfl⟩ := Nat.exists_eq_add_of_le' hn
    rfl

/-! ### Shapes of values -/

/-- A reader of JSON values: which value a JSON value stands for, if any, and what is known of such
a value. -/
structure Shape (α : Type) where
  read : Json → Except Cause α
  Means : Json → α → Prop
  Sound : α → Prop
  read_eq_ok_iff : ∀ j a, read j = .ok a ↔ Means j a
  sound_of_means : ∀ j a, Means j a → Sound a

namespace Shape

/-- Texts. -/
def texts : Shape (List Text) where
  read := textList
  Means := IsTextList
  Sound ts := ∀ t ∈ ts, '\x00' ∉ t
  read_eq_ok_iff _ _ := textList_eq_ok_iff
  sound_of_means _ _ h := h.2

/-- Search paths. -/
def paths : Shape (List Path) where
  read := Settings.paths
  Means := IsPathList
  Sound ps := ∀ p ∈ ps, p.text ≠ [] ∧ '\x00' ∉ p.text
  read_eq_ok_iff _ _ := paths_eq_ok_iff
  sound_of_means _ _ := IsPathList.sound

/-- Extensions. -/
def extensions : Shape (List Text) where
  read := Settings.extensions
  Means := IsExtensionList
  Sound es := es ≠ [] ∧ ∀ e ∈ es, e ≠ [] ∧ e.head? ≠ some '.' ∧ '\x00' ∉ e
  read_eq_ok_iff _ _ := extensions_eq_ok_iff
  sound_of_means _ _ := IsExtensionList.sound

/-- A Boolean. -/
def flag : Shape Bool where
  read := boolean
  Means j b := j = .bool b
  Sound _ := True
  read_eq_ok_iff _ _ := boolean_eq_ok_iff
  sound_of_means _ _ _ := trivial

/-- A number above zero. -/
def count : Shape Nat where
  read := positive
  Means j n := j = .nat n ∧ 1 ≤ n
  Sound n := 1 ≤ n
  read_eq_ok_iff _ _ := positive_eq_ok_iff
  sound_of_means _ _ h := h.2

end Shape

/-! ### The fields -/

namespace Field

/-- What a field holds. -/
def Value : Field → Type
  | maxIncludeDepth | maxSymbolLines | maxFiles => Nat
  | showVariables | showRegions => Bool
  | libraryAllowlist | fileExtensions => List Text
  | includePaths => List Path

/-- The shape of the value of a field. -/
def shape : (f : Field) → Shape f.Value
  | maxIncludeDepth | maxSymbolLines | maxFiles => Shape.count
  | showVariables | showRegions => Shape.flag
  | libraryAllowlist => Shape.texts
  | fileExtensions => Shape.extensions
  | includePaths => Shape.paths

/-- The fields in the order in which they are read. -/
def all : List Field :=
  [includePaths, libraryAllowlist, showVariables, showRegions, maxIncludeDepth, maxSymbolLines,
    fileExtensions, maxFiles]

end Field

/-- The value of a field. -/
def value (s : Settings) : (f : Field) → f.Value
  | .maxIncludeDepth => s.maxIncludeDepth
  | .maxSymbolLines => s.maxSymbolLines
  | .maxFiles => s.maxFiles
  | .showVariables => s.showVariables
  | .showRegions => s.showRegions
  | .libraryAllowlist => s.libraryAllowlist
  | .fileExtensions => s.fileExtensions
  | .includePaths => s.includePaths

/-- The errors of one field. -/
def errorsFor (f : Field) (errors : List Error) : List Error :=
  errors.filter (·.field = f)

/-- What becomes of one field: its value and its errors. -/
def part (j : Json) (f : Field) : f.Value × List Error :=
  readField (root j) f f.shape.read (standard.value f)

variable {f : Field} {v : Json}

lemma value_read (j : Json) (f : Field) : (read j).1.value f = (part j f).1 := by
  cases f <;> rfl

/-- The errors are those of the parts, in the order of the fields. -/
lemma errors_read (j : Json) : (read j).2 = Field.all.flatMap fun f => (part j f).2 := by
  simp only [Field.all, List.flatMap_cons, List.flatMap_nil, List.append_nil, ← List.append_assoc]
  rfl

/-- A field that is absent keeps its standard value, -/
lemma part_of_none (h : (root j).get? f.key = none) : part j f = (standard.value f, []) := by
  rw [part, readField, h]

/-- one that is right takes the value it stands for, -/
lemma part_of_means {x : f.Value} (h : (root j).get? f.key = some v) (hv : f.shape.Means v x) :
    part j f = (x, []) := by
  rw [part, readField, h]
  simp only [(f.shape.read_eq_ok_iff v x).mpr hv]

/-- and one that is wrong keeps its standard value with an error. -/
lemma part_of_not_means (h : (root j).get? f.key = some v) (hv : ∀ x, ¬ f.shape.Means v x) :
    ∃ cause, part j f = (standard.value f, [⟨f, cause⟩]) := by
  cases hread : f.shape.read v with
  | ok x => exact absurd ((f.shape.read_eq_ok_iff v x).mp hread) (hv x)
  | error cause =>
    refine ⟨cause, ?_⟩
    rw [part, readField, h]
    simp only [hread]

/-- Nothing else can become of a field. -/
lemma part_cases (j : Json) (f : Field) :
    part j f = (standard.value f, []) ∨ (∃ v x, f.shape.Means v x ∧ part j f = (x, [])) ∨
      ∃ cause, part j f = (standard.value f, [⟨f, cause⟩]) := by
  cases hkey : (root j).get? f.key with
  | none => exact Or.inl (part_of_none hkey)
  | some v =>
    by_cases hv : ∃ x, f.shape.Means v x
    · obtain ⟨x, hx⟩ := hv
      exact Or.inr (Or.inl ⟨v, x, hx, part_of_means hkey hx⟩)
    · exact Or.inr (Or.inr (part_of_not_means hkey (not_exists.mp hv)))

/-- The errors of a part are those of its field, and there is at most one. -/
lemma map_field_part_sublist (j : Json) (f : Field) :
    ((part j f).2.map Error.field).Sublist [f] := by
  obtain hpart | ⟨v, x, -, hpart⟩ | ⟨cause, hpart⟩ := part_cases j f
  · rw [hpart]
    exact List.nil_sublist _
  · rw [hpart]
    exact List.nil_sublist _
  · rw [hpart]
    exact List.Sublist.refl _

lemma map_field_flatMap_sublist (j : Json) (fields : List Field) :
    ((fields.flatMap fun f => (part j f).2).map Error.field).Sublist fields := by
  induction fields with
  | nil => exact List.nil_sublist _
  | cons f fields ih =>
    rw [List.flatMap_cons, List.map_append]
    exact (map_field_part_sublist j f).append ih

lemma errorsFor_part (j : Json) (f g : Field) :
    errorsFor f (part j g).2 = if g = f then (part j g).2 else [] := by
  have hfield : ∀ e ∈ (part j g).2, e.field = g := by
    intro e he
    exact List.mem_singleton.mp ((map_field_part_sublist j g).subset (List.mem_map_of_mem he))
  split
  next h =>
    subst h
    exact List.filter_eq_self.mpr fun e he => decide_eq_true (hfield e he)
  next h =>
    refine List.filter_eq_nil_iff.mpr fun e he => ?_
    rw [hfield e he]
    simpa using h

/-- Among all errors those of one field are found again. -/
lemma errorsFor_read (j : Json) (f : Field) : errorsFor f (read j).2 = (part j f).2 := by
  rw [errors_read, errorsFor, List.filter_flatMap]
  have hparts := List.flatMap_congr fun g (_ : g ∈ Field.all) => errorsFor_part j f g
  refine hparts.trans ?_
  cases f <;> simp [Field.all]

/-- The standard settings are sound, -/
lemma sound_standard (f : Field) : f.shape.Sound (standard.value f) := by
  cases f with
  | libraryAllowlist =>
    have hnul : ∀ t ∈ Catalogue.libraries, '\x00' ∉ t := by decide +kernel
    exact hnul
  | includePaths => exact List.forall_mem_nil _
  | fileExtensions => exact ⟨List.cons_ne_nil _ _, List.forall_mem_singleton.mpr (by decide)⟩
  | showVariables | showRegions => trivial
  | maxIncludeDepth | maxSymbolLines | maxFiles => exact Nat.succ_pos _

/-- and so is what is read. -/
lemma sound_read (j : Json) (f : Field) : f.shape.Sound ((read j).1.value f) := by
  rw [value_read]
  obtain hpart | ⟨v, x, hx, hpart⟩ | ⟨cause, hpart⟩ := part_cases j f
  · exact hpart ▸ sound_standard f
  · exact hpart ▸ f.shape.sound_of_means v x hx
  · exact hpart ▸ sound_standard f

/-- Settings that every part of the server can work with. -/
structure Usable (s : Settings) : Prop where
  depth : 1 ≤ s.maxIncludeDepth
  lines : 1 ≤ s.maxSymbolLines
  files : 1 ≤ s.maxFiles
  searchPaths : ∀ p ∈ s.includePaths, p.text ≠ [] ∧ '\x00' ∉ p.text
  libraries : ∀ t ∈ s.libraryAllowlist, '\x00' ∉ t
  someExtension : s.fileExtensions ≠ []
  extensions : ∀ e ∈ s.fileExtensions, e ≠ [] ∧ e.head? ≠ some '.' ∧ '\x00' ∉ e

lemma usable_read (j : Json) : Usable (read j).1 where
  depth := sound_read j .maxIncludeDepth
  lines := sound_read j .maxSymbolLines
  files := sound_read j .maxFiles
  searchPaths := sound_read j .includePaths
  libraries := sound_read j .libraryAllowlist
  someExtension := (sound_read j .fileExtensions).1
  extensions := (sound_read j .fileExtensions).2

/-- **Isolation**: each field depends on its own key only, in the object that holds the settings. An
absent key gives the standard value, a wrong one too, with one error, and a right one gives what it
stands for. The errors stand in the order of the fields, and whatever is read, the settings are
usable. -/
theorem read_isolated :
    (∀ (f : Field) (a b : Json), (root a).get? f.key = (root b).get? f.key →
      (read a).1.value f = (read b).1.value f ∧ errorsFor f (read a).2 = errorsFor f (read b).2) ∧
    (∀ (f : Field) (j : Json), (root j).get? f.key = none →
      (read j).1.value f = standard.value f ∧ errorsFor f (read j).2 = []) ∧
    (∀ (f : Field) (j v : Json), (root j).get? f.key = some v → (∀ x, ¬ f.shape.Means v x) →
      (read j).1.value f = standard.value f ∧ ∃ cause, errorsFor f (read j).2 = [⟨f, cause⟩]) ∧
    (∀ (f : Field) (j v : Json) (x : f.Value), (root j).get? f.key = some v → f.shape.Means v x →
      (read j).1.value f = x ∧ errorsFor f (read j).2 = []) ∧
    (∀ j, ((read j).2.map Error.field).Sublist Field.all) ∧
    ∀ j, Usable (read j).1 := by
  simp only [errorsFor_read, value_read]
  refine ⟨fun f a b h => ?_, fun f j h => ?_, fun f j v h hv => ?_,
    fun f j v x h hv => ?_, fun j => ?_, usable_read⟩
  · have hpart : part a f = part b f := by rw [part, part, readField, readField, h]
    rw [hpart]
    exact ⟨rfl, rfl⟩
  · rw [part_of_none h]
    exact ⟨rfl, rfl⟩
  · obtain ⟨cause, hpart⟩ := part_of_not_means h hv
    rw [hpart]
    exact ⟨rfl, cause, rfl⟩
  · rw [part_of_means h hv]
    exact ⟨rfl, rfl⟩
  · rw [errors_read]
    exact map_field_flatMap_sublist j Field.all

/-- Extensions with dots, one of them nothing but a dot. -/
def dottedExtensions : Json :=
  .arr [.text ".", .text "..au3"]

/-- Settings under a member of their own: one is wrong, one right, and one stands in the wrong
place. -/
def nestedSettings : Json :=
  .record [("wren", .record [("maxIncludeDepth", .nat 0), ("fileExtensions", dottedExtensions)]),
    ("maxSymbolLines", .nat 3)]

/-- Settings without such a member, with the same extensions. -/
def flatSettings : Json :=
  .record [("showRegionsInSymbols", .null), ("fileExtensions", dottedExtensions)]

/-- The wrong depth gives an error and leaves the extensions alone, which are those of the other
settings. -/
theorem read_isolated_nested :
    ((root nestedSettings).get? "fileExtensions" = (root flatSettings).get? "fileExtensions" ∧
      (read nestedSettings).1.fileExtensions = (read flatSettings).1.fileExtensions ∧
      errorsFor .fileExtensions (read nestedSettings).2 =
        errorsFor .fileExtensions (read flatSettings).2) ∧
    ((root nestedSettings).get? "maxSymbolLines" = none ∧
      (read nestedSettings).1.maxSymbolLines = 50000 ∧
      errorsFor .maxSymbolLines (read nestedSettings).2 = []) ∧
    ((∀ n, ¬ Shape.count.Means (.nat 0) n) ∧ (read nestedSettings).1.maxIncludeDepth = 32 ∧
      ∃ cause, errorsFor .maxIncludeDepth (read nestedSettings).2 = [⟨.maxIncludeDepth, cause⟩]) ∧
    (Shape.extensions.Means dottedExtensions ["au3".toList] ∧
      (read nestedSettings).1.fileExtensions = ["au3".toList] ∧
      errorsFor .fileExtensions (read nestedSettings).2 = []) := by
  have hzero : ∀ n, ¬ Shape.count.Means (.nat 0) n := by
    rintro n ⟨hn, hpos⟩
    cases hn
    cases hpos
  have hextensions : Shape.extensions.Means dottedExtensions ["au3".toList] :=
    ⟨by decide, [".".toList, "..au3".toList], ⟨rfl, by decide⟩, by decide⟩
  have hnested : (root nestedSettings).get? "fileExtensions" = some dottedExtensions := rfl
  have hflat : (root flatSettings).get? "fileExtensions" = some dottedExtensions := rfl
  have hlines : (root nestedSettings).get? "maxSymbolLines" = none := rfl
  have hdepth : (root nestedSettings).get? "maxIncludeDepth" = some (.nat 0) := rfl
  obtain ⟨hown, habsent, hwrong, hright, -, -⟩ := read_isolated
  have hsame := hnested.trans hflat.symm
  exact ⟨⟨hsame, hown .fileExtensions _ _ hsame⟩, ⟨hlines, habsent .maxSymbolLines _ hlines⟩,
    ⟨hzero, hwrong .maxIncludeDepth _ _ hdepth hzero⟩,
    ⟨hextensions, hright .fileExtensions _ _ _ hnested hextensions⟩⟩

end Settings

end AutoItServer
