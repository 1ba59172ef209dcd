import AutoItServer.Disk.Basic
import AutoItServer.Path.Normalize
import Mathlib.Data.List.Basic
import Mathlib.Tactic.Lemma

/-!
Places, and paths in normal form.

* `Text.splitOnChar_append`, `Text.splitOnChar_join`: splitting at a character, and putting
  together.
* `Path.IsPart`: a text that can stand between two slashes as a name.
* `Path.steps`: what a path adds to the place where it starts.
* `Path.atPlace`, `Path.fromHere`: the paths in normal form, absolute and relative, given by the
  names in them.
* `normalize?_of_isAbsolute`, `normalize?_of_not_isAbsolute`: the normal form of a path has the
  names that its steps leave.
* `normalize?_eq_iff`: two paths have one normal form when both start alike and leave the same
  names.
* `Path.IsReduced`: paths that are their own normal forms. `IsReduced.same_iff`: they are the same
  only when they are spelled alike.
* `components_join`: the components of a joined path depend on the directory through its components.
-/

namespace AutoItServer

/-! ### Splitting -/

namespace Text

variable {sep : Char}

/-- There is always a first part. -/
lemma splitOnChar_ne_nil (t : Text) : splitOnChar sep t ≠ [] := by
  cases t with
  | nil => simp [splitOnChar]
  | cons c cs =>
    rw [splitOnChar]
    split
    · simp
    · split <;> simp

/-- A text without the character is its only part. -/
lemma splitOnChar_of_notMem {t : Text} (h : sep ∉ t) : splitOnChar sep t = [t] := by
  induction t with
  | nil => rfl
  | cons c cs ih =>
    rw [List.mem_cons, not_or] at h
    rw [splitOnChar, if_neg (Ne.symm h.1), ih h.2]

/-- Splitting at an occurrence of the character. -/
lemma splitOnChar_append (a b : Text) :
    splitOnChar sep (a ++ sep :: b) = splitOnChar sep a ++ splitOnChar sep b := by
  induction a with
  | nil => simp [splitOnChar]
  | cons c cs ih =>
    rw [List.cons_append, splitOnChar, splitOnChar, ih]
    split
    · rfl
    · cases hcs : splitOnChar sep cs with
      | nil => exact absurd hcs (splitOnChar_ne_nil cs)
      | cons part parts => rfl

/-- The character does not occur in a part. -/
lemma notMem_of_mem_splitOnChar {t part : Text} (h : part ∈ splitOnChar sep t) : sep ∉ part := by
  induction t generalizing part with
  | nil =>
    rw [splitOnChar, List.mem_singleton] at h
    simp [h]
  | cons c cs ih =>
    rw [splitOnChar] at h
    split at h
    · rcases List.mem_cons.mp h with rfl | h
      · exact List.not_mem_nil
      · exact ih h
    · rename_i hc
      cases hcs : splitOnChar sep cs with
      | nil => exact absurd hcs (splitOnChar_ne_nil cs)
      | cons first parts =>
        rw [hcs] at h ih
        rcases List.mem_cons.mp h with rfl | h
        · rw [List.mem_cons, not_or]
          exact ⟨Ne.symm hc, ih List.mem_cons_self⟩
        · exact ih (List.mem_cons_of_mem _ h)

/-- Parts put together are found again. -/
lemma splitOnChar_join {parts : List Text} (hne : parts ≠ []) (h : ∀ t ∈ parts, sep ∉ t) :
    splitOnChar sep (join [sep] parts) = parts := by
  induction parts with
  | nil => exact absurd rfl hne
  | cons t ts ih =>
    have ht : sep ∉ t := h t List.mem_cons_self
    cases ts with
    | nil => exact splitOnChar_of_notMem ht
    | cons u us =>
      rw [join, List.append_assoc, List.singleton_append, splitOnChar_append,
        splitOnChar_of_notMem ht, ih (by simp) fun t ht => h t (List.mem_cons_of_mem _ ht)]
      · rfl
      · simp

end Text

namespace Path

/-! ### Components -/

/-- A text that can stand between two slashes as a name. -/
def IsPart (n : Text) : Prop :=
  n ≠ [] ∧ '/' ∉ n ∧ n ≠ ['.'] ∧ n ≠ ['.', '.']

/-- A name is a component of its own. -/
lemma component?_of_isPart {n : Text} (h : IsPart n) : component? false n = some (.name n) := by
  obtain ⟨h0, -, h1, h2⟩ := h
  rw [component?, if_neg (by simpa using h0), if_neg h1, if_neg h2]

/-- The components that are not the first one are names and `..`. -/
lemma mem_filterMap_component? {c : Component} {t : Text}
    (h : c ∈ (Text.splitOnChar '/' t).filterMap (component? false)) :
    c = .parent ∨ ∃ n, c = .name n ∧ IsPart n := by
  obtain ⟨part, hpart, hc⟩ := List.mem_filterMap.mp h
  have hslash := Text.notMem_of_mem_splitOnChar hpart
  simp only [component?, Bool.false_eq_true, if_false] at hc
  split_ifs at hc with h0 h1 h2
  · exact Or.inl (Option.some.inj hc).symm
  · exact Or.inr ⟨part, (Option.some.inj hc).symm, by simpa using h0, hslash, h1, h2⟩

/-- The components of an absolute path. -/
lemma components_slash (t : Text) :
    components ⟨'/' :: t⟩ = .root :: (Text.splitOnChar '/' t).filterMap (component? false) := by
  simp [components, Text.splitOnChar, isAbsolute]

/-- A path is absolute when it starts with a slash. -/
lemma isAbsolute_iff {p : Path} : p.isAbsolute ↔ ∃ t, p = ⟨'/' :: t⟩ := by
  obtain ⟨t⟩ := p
  cases t with
  | nil => simp [isAbsolute]
  | cons c cs => simp [isAbsolute]

/-- The components of a path that goes on after a slash. -/
lemma components_append_slash (a b : Text) :
    components ⟨a ++ '/' :: b⟩ = (if a = [] then [.root] else components ⟨a⟩) ++
      (Text.splitOnChar '/' b).filterMap (component? false) := by
  cases a with
  | nil => simp [components_slash]
  | cons c cs =>
    rw [if_neg (by simp), components, components, Text.splitOnChar_append]
    cases hparts : Text.splitOnChar '/' (c :: cs) with
    | nil => exact absurd hparts (Text.splitOnChar_ne_nil _)
    | cons part parts =>
      have habs : isAbsolute ⟨c :: cs ++ '/' :: b⟩ = isAbsolute ⟨c :: cs⟩ := rfl
      simp only [List.cons_append, List.filterMap_append]
      rw [← List.cons_append, habs]
      split <;> simp

/-- The components of a relative path have no root, and its names are names. -/
lemma mem_components_of_not_isAbsolute {p : Path} (hp : ¬ p.isAbsolute) {c : Component}
    (hc : c ∈ p.components) : c = .current ∨ c = .parent ∨ ∃ n, c = .name n ∧ IsPart n := by
  cases hparts : Text.splitOnChar '/' p.text with
  | nil => exact absurd hparts (Text.splitOnChar_ne_nil _)
  | cons part parts =>
    have hmem : ∀ q ∈ part :: parts, '/' ∉ q := fun q hq =>
      Text.notMem_of_mem_splitOnChar (hparts ▸ hq)
    simp only [components, hparts, if_neg hp, List.mem_append, Option.mem_toList,
      List.mem_filterMap] at hc
    have hcomp : ∃ first, ∃ q ∈ part :: parts, component? first q = some c := by
      rcases hc with hc | ⟨q, hq, hc⟩
      · exact ⟨true, part, List.mem_cons_self, hc⟩
      · exact ⟨false, q, List.mem_cons_of_mem _ hq, hc⟩
    obtain ⟨first, q, hq, hc⟩ := hcomp
    rw [component?] at hc
    split_ifs at hc with h0 h1 h2 h3
    · exact Or.inl (Option.some.inj hc).symm
    · exact Or.inr (Or.inl (Option.some.inj hc).symm)
    · exact Or.inr (Or.inr ⟨q, (Option.some.inj hc).symm, by simpa using h0, hmem q hq, h1, h3⟩)

/-- A path is absolute when its components start at the root. -/
lemma isAbsolute_iff_root_mem {p : Path} : p.isAbsolute ↔ .root ∈ p.components := by
  constructor
  · intro h
    obtain ⟨t, rfl⟩ := isAbsolute_iff.mp h
    rw [components_slash]
    exact List.mem_cons_self
  · intro h
    by_contra hp
    rcases mem_components_of_not_isAbsolute hp h with h | h | ⟨n, h, -⟩ <;> cases h

/-- Only the empty path has no components. -/
lemma components_eq_nil {p : Path} : p.components = [] ↔ p.text = [] := by
  constructor
  · intro h
    obtain ⟨t⟩ := p
    cases t with
    | nil => rfl
    | cons c cs =>
      by_cases hc : c = '/'
      · subst hc
        rw [components_slash] at h
        exact absurd h (by simp)
      · have habs : ¬ isAbsolute ⟨c :: cs⟩ := by simpa [isAbsolute] using hc
        cases hparts : Text.splitOnChar '/' cs with
        | nil => exact absurd hparts (Text.splitOnChar_ne_nil cs)
        | cons part parts =>
          simp only [components, Text.splitOnChar, if_neg hc, hparts, if_neg habs,
            List.append_eq_nil_iff, Option.toList_eq_nil_iff, component?] at h
          split_ifs at h <;> simp_all
  · intro h
    simp [components, h, Text.splitOnChar, isAbsolute, component?]

/-- A path that is joined to a directory stands after a slash. -/
lemma exists_join_eq {dir p : Path} (hdir : dir.components ≠ []) (hp : ¬ p.isAbsolute) :
    ∃ a, dir.join p = ⟨a ++ '/' :: p.text⟩ ∧
      dir.components = if a = [] then [.root] else components ⟨a⟩ := by
  have hne : dir.text ≠ [] := fun h => hdir (components_eq_nil.mpr h)
  obtain ⟨t⟩ := dir
  rw [join, if_neg hp]
  split_ifs with hlast
  · -- the directory ends in a slash already
    have hslash : t.getLast? = some '/' := by simpa [hne] using hlast
    obtain ⟨a, rfl⟩ : ∃ a, t = a ++ ['/'] := ⟨t.dropLast, by
      rw [List.dropLast_append_getLast?]; exact hslash⟩
    have hdirc := components_append_slash a []
    simp only [Text.splitOnChar, component?, List.filterMap_cons, List.isEmpty_nil, if_true,
      List.filterMap_nil, List.append_nil] at hdirc
    exact ⟨a, by rw [List.append_assoc, List.singleton_append], hdirc⟩
  · exact ⟨t, rfl, by rw [if_neg hne]⟩

/-- What a path adds to the place where it starts: names and `..`. -/
def steps (p : Path) : List Component :=
  (Text.splitOnChar '/' p.text).filterMap (component? false)

/-- **The components of a joined path**: those of the directory, then the steps of the rest. -/
lemma components_join {dir p : Path} (hdir : dir.components ≠ []) (hp : ¬ p.isAbsolute) :
    (dir.join p).components = dir.components ++ p.steps := by
  obtain ⟨a, hjoin, hdirc⟩ := exists_join_eq hdir hp
  rw [hjoin, components_append_slash, hdirc, steps]

/-- Joining depends on the directory through its components. -/
lemma components_join_congr {dir dir' : Path} (h : dir.components = dir'.components) (p : Path) :
    (dir.join p).components = (dir'.join p).components := by
  by_cases hp : p.isAbsolute
  · rw [join, join, if_pos hp, if_pos hp]
  · by_cases hdir : dir.components = []
    · have h1 : dir = dir' := by
        obtain ⟨t⟩ := dir
        obtain ⟨t'⟩ := dir'
        have ht := components_eq_nil.mp hdir
        have ht' := components_eq_nil.mp (h ▸ hdir)
        simp_all
      rw [h1]
    · rw [components_join hdir hp, components_join (h ▸ hdir) hp, h]

/-! ### Steps -/

/-- **Before the steps of a path** stands a root, a dot, or nothing. -/
lemma components_cases (p : Path) :
    p.isAbsolute ∧ p.components = .root :: p.steps ∨
      ¬ p.isAbsolute ∧ (p.components = .current :: p.steps ∨ p.components = p.steps) := by
  by_cases hp : p.isAbsolute
  · obtain ⟨t, rfl⟩ := isAbsolute_iff.mp hp
    refine Or.inl ⟨hp, ?_⟩
    rw [components_slash, steps, Text.splitOnChar, if_pos rfl, List.filterMap_cons_none rfl]
  · refine Or.inr ⟨hp, ?_⟩
    rw [components, steps]
    cases Text.splitOnChar '/' p.text with
    | nil => exact Or.inr rfl
    | cons part parts =>
      simp only [if_neg hp]
      by_cases hdot : part = ['.']
      · subst hdot
        exact Or.inl rfl
      · refine Or.inr ?_
        have hfirst : component? true part = component? false part := by
          simp only [component?, if_neg hdot]
        rw [hfirst, List.filterMap_cons]
        cases component? false part <;> rfl

/-- The steps of a path are seen at its components. -/
lemma steps_eq (p : Path) : p.steps = p.components.filter fun c => c != .root && c != .current := by
  have hsteps : p.steps.filter (fun c => c != .root && c != .current) = p.steps := by
    rw [List.filter_eq_self]
    intro c hc
    rcases mem_filterMap_component? hc with rfl | ⟨n, rfl, -⟩ <;> simp
  rcases components_cases p with ⟨-, h⟩ | ⟨-, h | h⟩
  · rw [h, List.filter_cons_of_neg (by simp), hsteps]
  · rw [h, List.filter_cons_of_neg (by simp), hsteps]
  · rw [h, hsteps]

/-- A path that goes on from another one goes on from its steps. -/
lemma steps_of_append {p q : Path} {ns : List Text}
    (h : q.components = p.components ++ ns.map .name) : q.steps = p.steps ++ ns.map .name := by
  rw [steps_eq, h, List.filter_append, ← steps_eq, List.append_cancel_left_eq, List.filter_eq_self]
  intro c hc
  obtain ⟨n, -, rfl⟩ := List.mem_map.mp hc
  simp

/-! ### Places -/

/-- The path in normal form that leads to a place. -/
def atPlace (ns : List Text) : Path :=
  ofComponents (.root :: ns.map .name)

lemma atPlace_text (ns : List Text) : (atPlace ns).text = '/' :: Text.join ['/'] ns := by
  simp [atPlace, ofComponents, Component.text, Function.comp_def]

@[simp] lemma isAbsolute_atPlace (ns : List Text) : (atPlace ns).isAbsolute := by
  rw [isAbsolute, atPlace_text]
  rfl

/-- Names are components of their own. -/
lemma filterMap_component?_of_isPart {ns : List Text} (h : ∀ n ∈ ns, IsPart n) :
    ns.filterMap (component? false) = ns.map .name := by
  rw [List.filterMap_congr (g := fun m => some (Component.name m)) fun m hm =>
    component?_of_isPart (h m hm)]
  simp

/-- The components of a path put together from parts without slashes. -/
lemma components_atPlace_of_notMem {parts : List Text} (h : ∀ part ∈ parts, '/' ∉ part) :
    (atPlace parts).components = .root :: parts.filterMap (component? false) := by
  have htext : atPlace parts = ⟨'/' :: Text.join ['/'] parts⟩ := by rw [← atPlace_text]
  rw [htext, components_slash]
  cases parts with
  | nil => rfl
  | cons part parts => rw [Text.splitOnChar_join (by simp) h]

/-- The components of the path of a place. -/
lemma components_atPlace {ns : List Text} (h : ∀ n ∈ ns, IsPart n) :
    (atPlace ns).components = .root :: ns.map .name := by
  rw [components_atPlace_of_notMem fun n hn => (h n hn).2.1, filterMap_component?_of_isPart h]

/-- One component more on the way to a place. -/
def placeStep (place : List Text) : Component → List Text
  | .name n => place ++ [n]
  | .parent => place.dropLast
  | _ => place

/-- The place of a path from its components. -/
lemma placeOf_eq (p : Path) : Disk.placeOf p = p.components.foldl placeStep [] := rfl

/-- The steps of a path lead where its components lead. -/
lemma placeFrom_eq_steps (place : List Text) (p : Path) :
    Disk.placeFrom place p = p.steps.foldl placeStep place := by
  show p.components.foldl placeStep place = _
  rcases components_cases p with ⟨-, h⟩ | ⟨-, h | h⟩
  · rw [h, List.foldl_cons]
    rfl
  · rw [h, List.foldl_cons]
    rfl
  · rw [h]

lemma placeOf_eq_steps (p : Path) : Disk.placeOf p = p.steps.foldl placeStep [] :=
  placeFrom_eq_steps [] p

/-- The names of a place are those of the path. -/
lemma isPart_of_mem_foldl {cs : List Component} (hcs : ∀ n, .name n ∈ cs → IsPart n)
    {place : List Text} (hplace : ∀ n ∈ place, IsPart n) :
    ∀ n ∈ cs.foldl placeStep place, IsPart n := by
  induction cs generalizing place with
  | nil => exact hplace
  | cons c cs ih =>
    refine ih (fun n hn => hcs n (List.mem_cons_of_mem _ hn)) fun n hn => ?_
    cases c with
    | root => exact hplace n hn
    | current => exact hplace n hn
    | parent => exact hplace n (List.dropLast_subset _ hn)
    | name m =>
      rcases List.mem_append.mp hn with hn | hn
      · exact hplace n hn
      · rw [List.mem_singleton.mp hn]
        exact hcs m List.mem_cons_self

/-- The names among the components of a path are names. -/
lemma isPart_of_name_mem {p : Path} {n : Text} (h : .name n ∈ p.components) : IsPart n := by
  by_cases hp : p.isAbsolute
  · obtain ⟨t, rfl⟩ := isAbsolute_iff.mp hp
    rw [components_slash, List.mem_cons] at h
    rcases h with h | h
    · cases h
    · rcases mem_filterMap_component? h with h | ⟨m, h, hm⟩
      · cases h
      · cases h
        exact hm
  · rcases mem_components_of_not_isAbsolute hp h with h | h | ⟨m, h, hm⟩
    · cases h
    · cases h
    · cases h
      exact hm

/-- The names on the way to the place of a path are names. -/
lemma isPart_of_mem_placeOf (p : Path) : ∀ n ∈ Disk.placeOf p, IsPart n :=
  isPart_of_mem_foldl (fun _ hn => isPart_of_name_mem hn) fun _ hn => absurd hn List.not_mem_nil

/-- Names lead down one by one. -/
lemma foldl_placeStep_name (ns place : List Text) :
    (ns.map Component.name).foldl placeStep place = place ++ ns := by
  induction ns generalizing place with
  | nil => simp
  | cons n ns ih => simp [placeStep, ih]

/-- The path of a place leads there. -/
@[simp] lemma placeOf_atPlace {ns : List Text} (h : ∀ n ∈ ns, IsPart n) :
    Disk.placeOf (atPlace ns) = ns := by
  rw [placeOf_eq, components_atPlace h, List.foldl_cons, foldl_placeStep_name]
  rfl

/-! ### Normal forms -/

/-- **Reducing components** follows the place, on top of a root or of nothing. -/
lemma foldl_push {cs base : List Component} (hcs : .root ∉ cs)
    (hbase : ∀ n, base.head? ≠ some (.name n)) (place : List Text) :
    cs.foldl push ((place.map Component.name).reverse ++ base) =
      ((cs.foldl placeStep place).map Component.name).reverse ++ base := by
  induction cs generalizing place with
  | nil => rfl
  | cons c cs ih =>
    rw [List.mem_cons, not_or] at hcs
    have hstep : push ((place.map Component.name).reverse ++ base) c =
        ((placeStep place c).map Component.name).reverse ++ base := by
      cases c with
      | root => exact absurd rfl hcs.1
      | current => rfl
      | name n => simp [placeStep, push]
      | parent =>
        rcases List.eq_nil_or_concat place with rfl | ⟨init, last, rfl⟩
        · -- there is no name to remove
          cases base with
          | nil => rfl
          | cons b base =>
            cases b with
            | name n => exact absurd rfl (hbase n)
            | root | current | parent => rfl
        · simp [placeStep, push]
    rw [List.foldl_cons, List.foldl_cons, hstep]
    exact ih hcs.2 _

/-- **The normal form of an absolute path** is the path of its place. -/
lemma normalize?_of_isAbsolute {p : Path} (hp : p.isAbsolute) :
    p.normalize? = some (atPlace (Disk.placeOf p)) := by
  obtain ⟨t, rfl⟩ := isAbsolute_iff.mp hp
  have hroot : .root ∉ (Text.splitOnChar '/' t).filterMap (component? false) := by
    intro h
    rcases mem_filterMap_component? h with h | ⟨n, h, -⟩ <;> cases h
  have hreduce : reduce (components ⟨'/' :: t⟩) =
      .root :: (Disk.placeOf ⟨'/' :: t⟩).map .name := by
    have hbase : ∀ n, [Component.root].head? ≠ some (.name n) := by simp
    rw [placeOf_eq, reduce, components_slash, List.foldl_cons, List.foldl_cons]
    have h := foldl_push hroot hbase []
    exact (congrArg List.reverse h).trans (by simp [placeStep])
  rw [normalize?, hreduce]
  rfl

/-- The path of a place is in normal form. -/
lemma normalize?_atPlace {ns : List Text} (h : ∀ n ∈ ns, IsPart n) :
    (atPlace ns).normalize? = some (atPlace ns) := by
  rw [normalize?_of_isAbsolute (isAbsolute_atPlace ns), placeOf_atPlace h]

/-- The relative path in normal form with some names. -/
def fromHere (ns : List Text) : Path :=
  ofComponents (ns.map .name)

lemma fromHere_text (ns : List Text) : (fromHere ns).text = Text.join ['/'] ns := by
  cases ns <;> simp [fromHere, ofComponents, Component.text, Function.comp_def]

/-- The components of a relative path in normal form. -/
lemma components_fromHere {ns : List Text} (h : ∀ n ∈ ns, IsPart n) :
    (fromHere ns).components = ns.map .name := by
  cases ns with
  | nil => exact components_eq_nil.mpr rfl
  | cons n ns =>
    obtain ⟨h0, hslash, h1, h2⟩ := h n List.mem_cons_self
    have hsplit := Text.splitOnChar_join (List.cons_ne_nil n ns) fun m hm => (h m hm).2.1
    have habs : ¬ (fromHere (n :: ns)).isAbsolute := by
      obtain ⟨c, cs, rfl⟩ := List.exists_cons_of_ne_nil h0
      have hc : c ≠ '/' := fun h => hslash (h ▸ List.mem_cons_self)
      rw [isAbsolute, fromHere_text]
      cases ns <;> simpa [Text.join] using hc
    have hfirst : component? true n = some (.name n) := by
      rw [component?, if_neg (by simpa using h0), if_neg h1, if_neg h2]
    rw [components, fromHere_text, hsplit]
    simp only [if_neg habs]
    rw [hfirst, filterMap_component?_of_isPart fun m hm => h m (List.mem_cons_of_mem _ hm)]
    rfl

lemma not_isAbsolute_fromHere {ns : List Text} (h : ∀ n ∈ ns, IsPart n) :
    ¬ (fromHere ns).isAbsolute := by
  rw [isAbsolute_iff_root_mem, components_fromHere h]
  simp

lemma placeOf_fromHere {ns : List Text} (h : ∀ n ∈ ns, IsPart n) :
    Disk.placeOf (fromHere ns) = ns := by
  rw [placeOf_eq, components_fromHere h, foldl_placeStep_name, List.nil_append]

/-- **The normal form of a relative path** has the names that its steps leave, if there are any. -/
lemma normalize?_of_not_isAbsolute {p : Path} (hp : ¬ p.isAbsolute) :
    p.normalize? = if Disk.placeOf p = [] then none else some (fromHere (Disk.placeOf p)) := by
  have hroot : .root ∉ p.components := fun h => hp (isAbsolute_iff_root_mem.mpr h)
  have hreduce : reduce p.components = (Disk.placeOf p).map .name := by
    have hbase : ∀ n, ([] : List Component).head? ≠ some (.name n) := by simp
    have h := foldl_push hroot hbase []
    rw [reduce, placeOf_eq]
    exact (congrArg List.reverse h).trans (by simp)
  rw [normalize?, hreduce]
  cases Disk.placeOf p with
  | nil => rfl
  | cons n ns => rfl

/-- The normal form of a relative path is relative. -/
lemma not_isAbsolute_of_normalize? {p q : Path} (hp : ¬ p.isAbsolute) (h : p.normalize? = some q) :
    ¬ q.isAbsolute := by
  rw [normalize?_of_not_isAbsolute hp] at h
  split_ifs at h
  rw [← Option.some.inj h]
  exact not_isAbsolute_fromHere (isPart_of_mem_placeOf p)

/-- The normal form of a path depends on its components only. -/
lemma normalize?_congr {p q : Path} (h : p.components = q.components) :
    p.normalize? = q.normalize? := by
  rw [normalize?, normalize?, h]

/-- **Two paths have one normal form** when both start alike and their steps leave the same
names. -/
lemma normalize?_eq_iff {p q : Path} :
    p.normalize? = q.normalize? ↔
      (p.isAbsolute ↔ q.isAbsolute) ∧ Disk.placeOf p = Disk.placeOf q := by
  have habsolute : ∀ {p q : Path}, p.isAbsolute → p.normalize? = q.normalize? → q.isAbsolute := by
    intro p q hp h
    by_contra hq
    rw [normalize?_of_isAbsolute hp] at h
    exact not_isAbsolute_of_normalize? hq h.symm (isAbsolute_atPlace _)
  have hparts := isPart_of_mem_placeOf
  constructor
  · intro h
    have hiff : p.isAbsolute ↔ q.isAbsolute :=
      ⟨fun hp => habsolute hp h, fun hq => habsolute hq h.symm⟩
    refine ⟨hiff, ?_⟩
    by_cases hp : p.isAbsolute
    · rw [normalize?_of_isAbsolute hp, normalize?_of_isAbsolute (hiff.mp hp)] at h
      rw [← placeOf_atPlace (hparts p), Option.some.inj h, placeOf_atPlace (hparts q)]
    · have hq : ¬ q.isAbsolute := fun hq => hp (hiff.mpr hq)
      rw [normalize?_of_not_isAbsolute hp, normalize?_of_not_isAbsolute hq] at h
      split_ifs at h with h0 h1 h1
      · rw [h0, h1]
      · rw [← placeOf_fromHere (hparts p), Option.some.inj h, placeOf_fromHere (hparts q)]
  · rintro ⟨hiff, hplace⟩
    by_cases hp : p.isAbsolute
    · rw [normalize?_of_isAbsolute hp, normalize?_of_isAbsolute (hiff.mp hp), hplace]
    · have hq : ¬ q.isAbsolute := fun hq => hp (hiff.mpr hq)
      rw [normalize?_of_not_isAbsolute hp, normalize?_of_not_isAbsolute hq, hplace]

/-- A path that is its own normal form. -/
def IsReduced (p : Path) : Prop :=
  p.normalize? = some p

/-- A normal form is its own normal form. -/
lemma isReduced_of_normalize? {p q : Path} (h : p.normalize? = some q) : q.IsReduced := by
  have hparts := isPart_of_mem_placeOf p
  by_cases hp : p.isAbsolute
  · rw [normalize?_of_isAbsolute hp] at h
    rw [← Option.some.inj h]
    exact normalize?_atPlace hparts
  · rw [normalize?_of_not_isAbsolute hp] at h
    split_ifs at h with hne
    rw [← Option.some.inj h, IsReduced,
      normalize?_of_not_isAbsolute (not_isAbsolute_fromHere hparts),
      placeOf_fromHere hparts, if_neg hne]

/-! ### Paths of places -/

/-- The path of a place, spelled in normal form. -/
def IsPlace (p : Path) : Prop :=
  ∃ ns, (∀ n ∈ ns, IsPart n) ∧ p = atPlace ns

lemma isPlace_atPlace_placeOf (p : Path) : IsPlace (atPlace (Disk.placeOf p)) :=
  ⟨_, isPart_of_mem_placeOf p, rfl⟩

lemma IsPlace.isAbsolute {p : Path} (h : p.IsPlace) : p.isAbsolute := by
  obtain ⟨ns, -, rfl⟩ := h
  exact isAbsolute_atPlace ns

lemma IsPlace.normalize? {p : Path} (h : p.IsPlace) : p.normalize? = some p := by
  obtain ⟨ns, hns, rfl⟩ := h
  exact normalize?_atPlace hns

/-- The path of a place is that of the place it leads to. -/
lemma IsPlace.eq_atPlace {p : Path} (h : p.IsPlace) : p = atPlace (Disk.placeOf p) :=
  Option.some.inj (h.normalize?.symm.trans (normalize?_of_isAbsolute h.isAbsolute))

lemma same_iff {p q : Path} : p.same q ↔ p.components = q.components := by
  rw [same, beq_iff_eq]

lemma same_symm {p q : Path} (h : p.same q) : q.same p :=
  same_iff.mpr (same_iff.mp h).symm

lemma same_trans {p q r : Path} (hpq : p.same q) (hqr : q.same r) : p.same r :=
  same_iff.mpr ((same_iff.mp hpq).trans (same_iff.mp hqr))

/-- **Normal forms are the same** only when they are spelled alike, and no path without normal form
is the same as one of them. -/
lemma IsReduced.same_iff {p q : Path} (hp : p.IsReduced) (hq : q.IsReduced ∨ q.normalize? = none) :
    p.same q ↔ p = q := by
  rw [Path.same_iff]
  refine ⟨fun h => ?_, fun h => h ▸ rfl⟩
  have hnormal : q.normalize? = some p := (normalize?_congr h).symm.trans hp
  rcases hq with hq | hq
  · exact Option.some.inj (hnormal.symm.trans hq)
  · rw [hq] at hnormal
    cases hnormal

/-- An absolute normal form is the path of a place. -/
lemma IsReduced.isPlace {p : Path} (hp : p.IsReduced) (habs : p.isAbsolute) : p.IsPlace := by
  have h := hp.symm.trans (normalize?_of_isAbsolute habs)
  rw [Option.some.inj h]
  exact isPlace_atPlace_placeOf p

end Path

end AutoItServer
