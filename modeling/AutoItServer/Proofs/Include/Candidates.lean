import AutoItServer.Include.Candidates
import Mathlib.Tactic.Lemma
import Mathlib.Tactic.SplitIfs

/-!
A directive leads to the first of its candidates that is a file.

A file name is looked for beside the document and then in the search paths, by two searches with
their own treatment of absolute names. Together they go through one list of candidates in order.

* `Include.spelling`: the file name of a directive, with slashes and with its extension.
* `candidates_eq_tried`: the candidates, from the spelling.
* `resolve_eq_elim` (**one list**): the two searches, one after the other, are one search through
  the candidates.
* `Include.Leads`, `Include.LeadsFirst`: a candidate whose normal form is a file, and the first one
  in a list.
* `Include.resolve_iff_first`: what a directive resolves to, and when it resolves to nothing.
-/

namespace AutoItServer

namespace Include

variable {d : Disk} {directive : Directive} {document p q : Path} {directories : List Path}

/-! ### The candidates -/

/-- The file name of a directive. Backslashes are read as slashes, and in angle brackets a name
whose last component has no extension gets `.au3`. -/
def spelling (directive : Directive) : Text :=
  let name := directive.spec.map fun c => if c = '\\' then '/' else c
  if directive.kind = .bracketed ∧ Path.extension? ⟨name⟩ = none then name ++ ".au3".toList
  else name

/-- The extension may be added before the backslashes are read as slashes. -/
lemma spelledPath_eq (directive : Directive) : spelledPath directive = ⟨spelling directive⟩ := by
  rw [spelledPath, spelling]
  cases directive.kind with
  | quoted => rfl
  | bracketed =>
    simp only [true_and]
    cases hext : (specPath directive.spec).extension? with
    | none =>
      rw [withExtension, hext, if_neg (by decide), if_pos (by exact hext), specPath,
        List.map_append]
      rfl
    | some extension =>
      have hsome : Path.extension? ⟨directive.spec.map fun c => if c = '\\' then '/' else c⟩ ≠
          none := by
        rw [← specPath, hext]
        simp
      rw [withExtension, hext, if_pos (by rfl), if_neg hsome]
      rfl

/-- The search paths with the first one moved behind the others. -/
lemma searchOrder_false (directories : List Path) :
    searchOrder false directories = directories.drop 1 ++ directories.take 1 := by
  cases directories <;> rfl

lemma searchOrder_true (directories : List Path) : searchOrder true directories = directories := by
  cases directories <;> rfl

/-! ### The search -/

/-- A path that is tried as it is, if it is absolute, and in some directories otherwise. -/
def tried (p : Path) (places : List Path) : List Path :=
  if p.isAbsolute then [p] else places.map (·.join p)

/-- A path that is tried again finds nothing new, if it is absolute. -/
lemma findSome?_tried_append (d : Disk) (p : Path) (places places' : List Path) :
    (tried p (places ++ places')).findSome? (existing? d) =
      ((tried p places).findSome? (existing? d)).or
        ((tried p places').findSome? (existing? d)) := by
  simp only [tried]
  split_ifs
  · rw [Option.or_self]
  · rw [List.map_append, List.findSome?_append]

lemma search?_eq_findSome? (d : Disk) (directories : List Path) (libraryFirst : Bool) {spec : Text}
    (hspec : spec ≠ []) :
    search? d spec directories libraryFirst =
      (tried (specPath spec) (searchOrder libraryFirst directories)).findSome? (existing? d) := by
  have hne : spec.isEmpty = false := List.isEmpty_eq_false_iff.mpr hspec
  simp only [search?, tried, hne, Bool.false_eq_true, if_false]
  split_ifs
  · rw [List.findSome?_singleton]
  · rw [List.findSome?_map]
    rfl

lemma beside?_eq_findSome? (d : Disk) (document : Path) (spec : Text) :
    beside? d document spec =
      (tried (specPath spec) document.parent?.toList).findSome? (existing? d) := by
  simp only [beside?, tried]
  split_ifs
  · rw [List.findSome?_singleton]
  · cases document.parent? with
    | none => rfl
    | some dir =>
      rw [Option.toList_some, List.map_singleton, List.findSome?_singleton, Option.bind_some]

lemma candidates_eq_tried (directive : Directive) (document : Path) (directories : List Path) :
    candidates directive document directories =
      tried (spelledPath directive) (placesFor directive.kind document directories) :=
  rfl

/-- **One list**: a directive is looked for among its candidates, from the first one on. -/
lemma resolve_eq_elim (d : Disk) (document : Path) (directories : List Path)
    (hspec : directive.spec ≠ []) :
    resolve d directive document directories =
      ((candidates directive document directories).findSome? (existing? d)).elim
        (.error (.notFound directive.spec)) .ok := by
  have hextended : withExtension directive.spec ≠ [] := by
    rw [withExtension]
    split_ifs
    · exact hspec
    · simp
  rw [candidates_eq_tried]
  obtain ⟨kind, spec, line⟩ := directive
  cases kind with
  | quoted =>
    simp only [resolve, spelledPath, placesFor, beside?_eq_findSome?,
      search?_eq_findSome? d directories false hspec,
      searchOrder_false, List.append_assoc, findSome?_tried_append d _ document.parent?.toList]
    cases Option.or _ _ <;> rfl
  | bracketed =>
    simp only [resolve, spelledPath, placesFor, search?_eq_findSome? d directories true hextended,
      searchOrder_true]
    cases List.findSome? _ _ <;> rfl

/-- A candidate leads to a file: its normal form exists and is one. -/
def Leads (d : Disk) (c q : Path) : Prop :=
  c.normalize? = some q ∧ d.isFile q

/-- The first of some candidates that leads to a file leads to this one. -/
def LeadsFirst (d : Disk) (candidates : List Path) (q : Path) : Prop :=
  ∃ before c after, candidates = before ++ c :: after ∧ Leads d c q ∧
    ∀ b ∈ before, ∀ r, ¬ Leads d b r

lemma existing?_eq_some_iff_leads {c : Path} : existing? d c = some q ↔ Leads d c q :=
  Option.filter_eq_some_iff

lemma existing?_eq_none_iff {c : Path} : existing? d c = none ↔ ∀ q, ¬ Leads d c q := by
  simp only [← existing?_eq_some_iff_leads]
  exact Option.eq_none_iff_forall_ne_some

/-- What an optional file says about a directive. -/
lemma elim_eq_ok_iff {found : Option Path} {spec : Text} :
    found.elim (.error (.notFound spec)) .ok = (.ok q : Except Error Path) ↔ found = some q := by
  cases found <;> simp

lemma elim_eq_error_iff {found : Option Path} {spec : Text} :
    found.elim (.error (.notFound spec)) .ok = (.error (.notFound spec) : Except Error Path) ↔
    found = none := by
  cases found <;> simp

/-- **The first match.** A directive names a path. If it is absolute, it is the only candidate.
Otherwise the candidates are the path in the directory of the document, in the search paths but the
first and in the first one, if the name stands in quotes, and in the search paths in their order, if
it stands in angle brackets. The directive resolves to the normal form of the first candidate that
leads to a file, and it is not found, under the name as it is written, exactly if no candidate leads
to a file. -/
theorem resolve_iff_first (d : Disk) (directive : Directive) (document : Path)
    (directories : List Path) (hspec : directive.spec ≠ []) :
    let p : Path := ⟨spelling directive⟩
    let candidates :=
      if p.isAbsolute then [p]
      else (placesFor directive.kind document directories).map (·.join p)
    (∀ q, resolve d directive document directories = .ok q ↔ LeadsFirst d candidates q) ∧
    (resolve d directive document directories = .error (.notFound directive.spec) ↔
      ∀ c ∈ candidates, ∀ q, ¬ Leads d c q) := by
  intro p candidates
  have hresolve : resolve d directive document directories =
      (candidates.findSome? (existing? d)).elim (.error (.notFound directive.spec)) .ok := by
    rw [resolve_eq_elim d document directories hspec, candidates_eq_tried, spelledPath_eq]
    rfl
  rw [hresolve]
  refine ⟨fun q => ?_, ?_⟩
  · rw [elim_eq_ok_iff, List.findSome?_eq_some_iff, LeadsFirst]
    simp only [existing?_eq_some_iff_leads, existing?_eq_none_iff]
  · rw [elim_eq_error_iff, List.findSome?_eq_none_iff]
    simp only [existing?_eq_none_iff]

/-- A library next to the project that is a directory, one at the root, and one below the standard
library. -/
def crowded : Disk :=
  ((Disk.empty.makeDirectory (.ofString "/work/lib/A.au3")).write (.ofString "/lib/A.au3")
      ⟨[], 1⟩).write
    (.ofString "/std/lib/A.au3") ⟨[], 2⟩

/-- A name in quotes that leaves the directory of the document. What stands beside the document is a
directory, the second search path has nothing, and the third one comes before the first. In angle
brackets the same name without its extension is found in the first search path. -/
theorem resolve_iff_first_crowded :
    let up : Directive := ⟨.quoted, "..\\lib\\A.au3".toList, 0⟩
    let bracketed : Directive := ⟨.bracketed, "..\\lib\\A".toList, 1⟩
    let directories : List Path := [.ofString "/std/udf", .ofString "/x/y", .ofString "/u"]
    resolve crowded up (.ofString "/work/src/main.au3") directories = .ok (.ofString "/lib/A.au3") ∧
      LeadsFirst crowded [.ofString "/work/src/../lib/A.au3", .ofString "/x/y/../lib/A.au3",
        .ofString "/u/../lib/A.au3", .ofString "/std/udf/../lib/A.au3"] (.ofString "/lib/A.au3") ∧
      resolve crowded bracketed (.ofString "/work/src/main.au3") directories =
        .ok (.ofString "/std/lib/A.au3") ∧
      LeadsFirst crowded [.ofString "/std/udf/../lib/A.au3", .ofString "/x/y/../lib/A.au3",
        .ofString "/u/../lib/A.au3"] (.ofString "/std/lib/A.au3") := by
  intro up bracketed directories
  have hup : resolve crowded up (.ofString "/work/src/main.au3") directories =
      .ok (.ofString "/lib/A.au3") := by
    rfl
  have hbracketed : resolve crowded bracketed (.ofString "/work/src/main.au3") directories =
      .ok (.ofString "/std/lib/A.au3") := by
    rfl
  refine ⟨hup, ?_, hbracketed, ?_⟩
  · exact ((resolve_iff_first crowded up (.ofString "/work/src/main.au3") directories
        (by decide)).1 _).mp hup
  · exact ((resolve_iff_first crowded bracketed (.ofString "/work/src/main.au3") directories
        (by decide)).1 _).mp
      hbracketed

end Include

end AutoItServer
