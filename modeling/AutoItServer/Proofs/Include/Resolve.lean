import AutoItServer.Include.Walk
import AutoItServer.Proofs.Disk.Frame

/-!
What the file of a directive depends on.

* `isReduced_of_target?`: a directive leads to a file, named by a normal form.
* `target?_of_existing?`: when files go away, a directive that led to none of them leads where it
  led before.
* `target?_of_respelled`: search paths with the same components find the same files.
-/

namespace AutoItServer

namespace Include

open AutoItServer.Path (atPlace)

variable {d d' : Disk} {settings settings' : Settings} {document p q x : Path}
  {directive : Directive} {directories directories' : List Path}

/-! ### Files that exist -/

/-- A path stands for the file that its normal form leads to. -/
lemma existing?_eq_some_iff : existing? d p = some q ↔ p.normalize? = some q ∧ d.isFile q := by
  rw [existing?, Option.filter_eq_some_iff]

/-- What a path stands for depends on its components only. -/
lemma existing?_congr (h : p.components = q.components) : existing? d p = existing? d q := by
  rw [existing?, existing?, Path.normalize?_congr h]

/-- What is resolved is the normal form of some path, and exists. -/
lemma exists_existing?_of_resolve (h : resolve d directive document directories = .ok q) :
    ∃ p, existing? d p = some q := by
  have hsearch : ∀ spec libraryFirst, search? d spec directories libraryFirst = some q →
      ∃ p, existing? d p = some q := by
    intro spec libraryFirst h
    simp only [search?] at h
    split_ifs at h with hspec habs
    · exact ⟨_, h⟩
    · obtain ⟨dir, -, h⟩ := List.exists_of_findSome?_eq_some h
      exact ⟨_, h⟩
  have hbeside : ∀ spec, beside? d document spec = some q → ∃ p, existing? d p = some q := by
    intro spec h
    simp only [beside?] at h
    split_ifs at h with habs
    · exact ⟨_, h⟩
    · obtain ⟨dir, -, h⟩ := Option.bind_eq_some_iff.mp h
      exact ⟨_, h⟩
  rw [resolve] at h
  split at h
  · rename_i found hfound
    obtain rfl := Except.ok.inj h
    cases hkind : directive.kind with
    | quoted =>
      simp only [hkind] at hfound
      rcases Option.or_eq_some_iff.mp hfound with h | ⟨-, h⟩
      · exact hbeside _ h
      · exact hsearch _ _ h
    | bracketed =>
      simp only [hkind] at hfound
      exact hsearch _ _ hfound
  · cases h

/-- **Where a directive leads**: to a file, named by a normal form. -/
lemma isReduced_of_target? (h : target? d settings document directive = some q) :
    q.IsReduced ∧ d.isFile q := by
  rw [target?] at h
  split_ifs at h
  split at h
  · rename_i p hp
    obtain rfl := Option.some.inj h
    obtain ⟨r, hr⟩ := exists_existing?_of_resolve hp
    obtain ⟨hnormal, hfile⟩ := existing?_eq_some_iff.mp hr
    exact ⟨Path.isReduced_of_normalize? hnormal, hfile⟩
  · cases h

/-! ### Another disk -/

/-- A search that ends at nothing lost is the same when only what is lost makes a difference. -/
lemma findSome?_of_forall {α β : Type} {f g : α → Option β} {lost : β → Prop}
    (h : ∀ a, g a = f a ∨ ∃ x, f a = some x ∧ lost x) (l : List α) :
    l.findSome? g = l.findSome? f ∨ ∃ x, l.findSome? f = some x ∧ lost x := by
  induction l with
  | nil => exact Or.inl rfl
  | cons a l ih =>
    rw [List.findSome?_cons, List.findSome?_cons]
    rcases h a with ha | ⟨x, ha, hx⟩
    · rw [ha]
      cases f a with
      | none => exact ih
      | some b => exact Or.inl rfl
    · exact Or.inr ⟨x, by rw [ha], hx⟩

/-- A directive that leads to nothing lost leads to the same file on another disk, when the disks
differ only in the existence of what is lost. -/
lemma target?_of_existing? {lost : Path → Prop}
    (h : ∀ p, existing? d' p = existing? d p ∨ ∃ x, existing? d p = some x ∧ lost x)
    (settings : Settings) (document : Path) (directive : Directive) :
    target? d' settings document directive = target? d settings document directive ∨
      ∃ x, target? d settings document directive = some x ∧ lost x := by
  have hsearch : ∀ spec directories libraryFirst,
      search? d' spec directories libraryFirst = search? d spec directories libraryFirst ∨
        ∃ x, search? d spec directories libraryFirst = some x ∧ lost x := by
    intro spec directories libraryFirst
    simp only [search?]
    split_ifs with hspec habs
    · exact Or.inl rfl
    · exact h _
    · exact findSome?_of_forall (fun dir => h _) _
  have hbeside : ∀ spec, beside? d' document spec = beside? d document spec ∨
      ∃ x, beside? d document spec = some x ∧ lost x := by
    intro spec
    simp only [beside?]
    split_ifs with habs
    · exact h _
    · cases document.parent? with
      | none => exact Or.inl rfl
      | some dir => exact h _
  simp only [target?]
  split_ifs with hlist
  · exact Or.inl rfl
  · simp only [resolve]
    cases directive.kind with
    | quoted =>
      rcases hbeside directive.spec with hb | ⟨x, hb, hx⟩
      · simp only [hb]
        cases beside? d document directive.spec with
        | some q => exact Or.inl rfl
        | none =>
          rcases hsearch directive.spec settings.includePaths false with hs | ⟨x, hs, hx⟩
          · exact Or.inl (by simp [hs])
          · exact Or.inr ⟨x, by simp [hs], hx⟩
      · exact Or.inr ⟨x, by simp [hb], hx⟩
    | bracketed =>
      rcases hsearch (withExtension directive.spec) settings.includePaths true with hs | ⟨x, hs, hx⟩
      · exact Or.inl (by simp [hs])
      · exact Or.inr ⟨x, by simp [hs], hx⟩

/-- After a file is overwritten the same files exist. -/
lemma existing?_write_of_isFile (hp : p.isAbsolute) (hfile : d.isFile (atPlace (Disk.placeOf p)))
    (f : File) (q : Path) : existing? (d.write p f) q = existing? d q := by
  have hisFile : (d.write p f).isFile = d.isFile := by
    funext r
    rw [Disk.isFile, Disk.isFile, Disk.file?_write_of_isFile hp hfile]
    split_ifs with hr
    · obtain ⟨g, hg⟩ := Option.isSome_iff_exists.mp hfile
      have hnode := ((Disk.file?_atPlace_iff (Path.isPart_of_mem_placeOf p)).mp hg).2
      rw [Disk.file?_eq_some_iff_locate?.mpr ⟨_, hr, hnode⟩]
      rfl
    · rfl
  rw [existing?, existing?, hisFile]

/-- After a file is deleted all files exist as before, but for paths that led to it. -/
lemma existing?_delete_of_isFile (hfile : d.isFile p) (q : Path) :
    existing? (d.delete p) q = existing? d q ∨
      ∃ x, existing? d q = some x ∧ d.locate? x = d.locate? p := by
  rw [existing?, existing?]
  cases q.normalize? with
  | none => exact Or.inl rfl
  | some x =>
    by_cases hx : d.isFile x ∧ d.locate? x = d.locate? p
    · exact Or.inr ⟨x, by rw [Option.filter_some, if_pos hx.1], hx.2⟩
    · refine Or.inl ?_
      have hisFile : (d.delete p).isFile x = d.isFile x := by
        rw [Disk.isFile, Disk.file?_delete_of_isFile hfile]
        split_ifs with hplace
        · exact (Bool.eq_false_iff.mpr fun h => hx ⟨h, hplace⟩).symm
        · rfl
      rw [Option.filter_some, Option.filter_some, hisFile]

/-! ### Other settings -/

/-- Search paths with the same components find the same files. -/
lemma search?_of_respelled (h : directories.map Path.components = directories'.map Path.components)
    (spec : Text) (libraryFirst : Bool) :
    search? d spec directories libraryFirst = search? d spec directories' libraryFirst := by
  have hfind : ∀ l l' : List Path, l.map Path.components = l'.map Path.components →
      l.findSome? (fun dir => existing? d (dir.join (specPath spec))) =
        l'.findSome? fun dir => existing? d (dir.join (specPath spec)) := by
    intro l
    induction l with
    | nil =>
      intro l' hl
      rw [List.map_eq_nil_iff.mp hl.symm]
    | cons dir l ih =>
      intro l' hl
      cases l' with
      | nil => simp at hl
      | cons dir' l' =>
        rw [List.map_cons, List.map_cons, List.cons.injEq] at hl
        rw [List.findSome?_cons, List.findSome?_cons, ih l' hl.2,
          existing?_congr (Path.components_join_congr hl.1 _)]
  simp only [search?]
  congr 2
  refine hfind _ _ ?_
  cases directories with
  | nil => rw [List.map_eq_nil_iff.mp h.symm]
  | cons library rest =>
    cases directories' with
    | nil => simp at h
    | cons library' rest' =>
      rw [List.map_cons, List.map_cons, List.cons.injEq] at h
      cases libraryFirst <;> simp [searchOrder, h.1, h.2]

/-- A directive leads to the same file under settings that agree on what shapes the include
graph. -/
lemma target?_of_respelled (h : settings.includesDiffer settings' = false) (d : Disk)
    (document : Path) (directive : Directive) :
    target? d settings' document directive = target? d settings document directive := by
  simp only [Settings.includesDiffer, Bool.or_eq_false_iff, bne_eq_false_iff_eq] at h
  obtain ⟨⟨hpaths, hlist⟩, -⟩ := h
  have hallow : settings'.isAllowlisted directive.spec = settings.isAllowlisted directive.spec := by
    rw [Settings.isAllowlisted, Settings.isAllowlisted, hlist]
  have hresolve : resolve d directive document settings'.includePaths =
      resolve d directive document settings.includePaths := by
    simp only [resolve, search?_of_respelled hpaths]
  rw [target?, target?, hallow, hresolve]

end Include

end AutoItServer
