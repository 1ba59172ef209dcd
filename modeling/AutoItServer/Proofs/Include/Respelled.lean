import AutoItServer.Proofs.Include.Candidates
import AutoItServer.Proofs.Include.Graph
import AutoItServer.Proofs.Path.Canonical

/-!
A file is met under one key, however the directives that lead to it are spelled.

The key of a file in a walk is the normal form of the candidate at which a directive finds it. So
lexically equal candidates have one key, and other candidates have others.

* `Include.FoundAt`: a directive leads to a file, which it finds at one of its candidates.
* `Include.Interchangeable`: file names that are lexically equal in every directory.
* `findSome?_candidates_of_resolve`: a directive that resolves to a file resolves to that of its
  first candidate.
* `findSome?_candidates_congr`, `resolve_of_interchangeable`: interchangeable names are found in the
  same places.
* `visited_walk`, `pairwise_visited`: the keys of a walk; no two keys of a walk are lexically equal.
* `normalForm_canonical` (**one key**): the laws of normal forms, and what they mean for the keys of
  a walk.
-/

namespace AutoItServer

namespace Include

open AutoItServer.Path (LexicallyEqual IsPart atPlace up)

variable {d : Disk} {settings : Settings} {document p q c c' k k' : Path}
  {directive directive' : Directive} {directories : List Path}

/-! ### Candidates and keys -/

/-- A directive of a document leads to the file `k`, and `c` is the candidate at which the file is
found: the first one that leads to a file. -/
def FoundAt (d : Disk) (settings : Settings) (document : Path) (directive : Directive)
    (c k : Path) : Prop :=
  target? d settings document directive = some k ∧ Leads d c k ∧
    ∃ before after, candidates directive document settings.includePaths = before ++ c :: after ∧
      ∀ b ∈ before, ∀ r, ¬ Leads d b r

/-- **Keys of candidates**: those of lexically equal candidates are one, and no others are. -/
lemma Leads.lexicallyEqual_iff (h : Leads d c k) (h' : Leads d c' k') :
    LexicallyEqual c c' ↔ k = k' := by
  rw [Path.lexicallyEqual_iff, h.1, h'.1, Option.some.injEq, eq_comm]

lemma resolve_quoted_eq_ok_iff {spec : Text} {line : Nat} :
    resolve d ⟨.quoted, spec, line⟩ document directories = .ok k ↔
      (beside? d document spec).or (search? d spec directories false) = some k := by
  simp only [resolve]
  cases Option.or _ _ <;> simp

lemma resolve_bracketed_eq_ok_iff {spec : Text} {line : Nat} :
    resolve d ⟨.bracketed, spec, line⟩ document directories = .ok k ↔
      search? d (withExtension spec) directories true = some k := by
  simp only [resolve]
  cases search? _ _ _ _ <;> simp

/-- A search that succeeds finds the first candidate. An empty name is not searched for. -/
lemma findSome?_tried_of_search? {spec : Text} {libraryFirst : Bool}
    (h : search? d spec directories libraryFirst = some k) :
    (tried (specPath spec) (searchOrder libraryFirst directories)).findSome? (existing? d) =
      some k := by
  have hspec : spec ≠ [] := by
    rintro rfl
    cases h
  rw [← search?_eq_findSome? d directories libraryFirst hspec, h]

/-- A directive that resolves to a file resolves to that of its first candidate that leads to
one. -/
lemma findSome?_candidates_of_resolve (h : resolve d directive document directories = .ok k) :
    (candidates directive document directories).findSome? (existing? d) = some k := by
  obtain ⟨kind, spec, line⟩ := directive
  rw [candidates_eq_tried]
  cases kind with
  | quoted =>
    simp only [spelledPath, placesFor, List.append_assoc,
      findSome?_tried_append d _ document.parent?.toList,
      ← beside?_eq_findSome?, ← searchOrder_false]
    rcases Option.or_eq_some_iff.mp (resolve_quoted_eq_ok_iff.mp h) with
      hbeside | ⟨hbeside, hsearch⟩
    · rw [hbeside, Option.some_or]
    · rw [hbeside, Option.none_or, findSome?_tried_of_search? hsearch]
  | bracketed =>
    have hfirst := findSome?_tried_of_search? (resolve_bracketed_eq_ok_iff.mp h)
    rwa [searchOrder_true] at hfirst

/-- What a walk takes a directive for is what it resolves to. -/
lemma resolve_of_target? (h : target? d settings document directive = some k) :
    resolve d directive document settings.includePaths = .ok k := by
  rw [target?] at h
  split_ifs at h
  split at h
  · rename_i r hresolve
    rw [hresolve, Option.some.inj h]
  · cases h

/-- **A key** is found at a candidate. -/
lemma exists_foundAt (h : target? d settings document directive = some k) :
    ∃ c, FoundAt d settings document directive c k := by
  obtain ⟨before, c, after, hcandidates, hc, hbefore⟩ :=
    List.findSome?_eq_some_iff.mp (findSome?_candidates_of_resolve (resolve_of_target? h))
  refine ⟨c, h, existing?_eq_some_iff_leads.mp hc, before, after, hcandidates, fun b hb => ?_⟩
  exact existing?_eq_none_iff.mp (hbefore b hb)

/-! ### Interchangeable names -/

/-- File names that are lexically equal in every directory. An absolute one is the same
everywhere. -/
def Interchangeable (p q : Path) : Prop :=
  (p.isAbsolute ↔ q.isAbsolute) ∧ ∀ dir : Path, dir.isAbsolute →
    LexicallyEqual (dir.join p) (dir.join q)

/-- Lexically equal paths stand for one file. -/
lemma existing?_of_lexicallyEqual (h : LexicallyEqual p q) : existing? d p = existing? d q := by
  rw [existing?, existing?, Path.lexicallyEqual_iff.mp h]

/-- Names that are interchangeable lead from every place to one place. -/
lemma Interchangeable.foldl_placeStep (h : Interchangeable p q) (hp : ¬ p.isAbsolute)
    {place : List Text} (hplace : ∀ n ∈ place, IsPart n) :
    p.steps.foldl Path.placeStep place = q.steps.foldl Path.placeStep place := by
  have hq : ¬ q.isAbsolute := fun hq => hp (h.1.mpr hq)
  have hequal := (h.2 (atPlace place) (Path.isAbsolute_atPlace place)).placeOf_eq.2
  rwa [Path.placeOf_join hp, Path.placeOf_join hq, Path.placeOf_atPlace hplace] at hequal

/-- Names that are interchangeable are lexically equal in relative directories too. -/
lemma Interchangeable.lexicallyEqual_join (h : Interchangeable p q) (hp : ¬ p.isAbsolute)
    (dir : Path) :
    LexicallyEqual (dir.join p) (dir.join q) :=
  Path.lexicallyEqual_join_of_steps hp (fun hq => hp (h.1.mpr hq))
    (h.foldl_placeStep hp (Path.isPart_of_mem_placeOf dir))

/-- **Interchangeable names** are found in the same places. -/
lemma findSome?_candidates_congr (hkind : directive.kind = directive'.kind)
    (h : Interchangeable (spelledPath directive) (spelledPath directive')) :
    (candidates directive document directories).findSome? (existing? d) =
      (candidates directive' document directories).findSome? (existing? d) := by
  rw [candidates_eq_tried, candidates_eq_tried, hkind]
  by_cases hp : (spelledPath directive).isAbsolute
  · have hroot := h.2 Path.slash rfl
    have hq := h.1.mp hp
    rw [Path.join, Path.join, if_pos hp, if_pos hq] at hroot
    rw [tried, tried, if_pos hp, if_pos hq, List.findSome?_singleton, List.findSome?_singleton,
      existing?_of_lexicallyEqual hroot]
  · have hq : ¬ (spelledPath directive').isAbsolute := fun hq => hp (h.1.mpr hq)
    rw [tried, tried, if_neg hp, if_neg hq, List.findSome?_map, List.findSome?_map]
    exact congrArg (List.findSome? · _)
      (funext fun dir => existing?_of_lexicallyEqual (h.lexicallyEqual_join hp dir))

/-- What one of two interchangeable names resolves to, the other one resolves to. -/
lemma resolve_of_interchangeable (hkind : directive.kind = directive'.kind)
    (h : Interchangeable (spelledPath directive) (spelledPath directive'))
    (hspec : directive'.spec ≠ []) (hresolve : resolve d directive document directories = .ok k) :
    resolve d directive' document directories = .ok k := by
  rw [resolve_eq_elim d document directories hspec, elim_eq_ok_iff,
    ← findSome?_candidates_congr hkind h]
  exact findSome?_candidates_of_resolve hresolve

/-- Relative names are interchangeable when their steps lead from every place to one place. -/
lemma interchangeable_of_steps (hp : ¬ p.isAbsolute) (hq : ¬ q.isAbsolute)
    (h : ∀ place, p.steps.foldl Path.placeStep place = q.steps.foldl Path.placeStep place) :
    Interchangeable p q :=
  ⟨iff_of_false hp hq, fun _ _ => Path.lexicallyEqual_join_of_steps hp hq (h _)⟩

/-! ### Keys of a walk -/

/-- The keys of a walk are those of the files found, from the last one on, and that of the
document. -/
lemma visited_walk (d : Disk) (settings : Settings) (content : Content) (document : Path)
    (directives : List Directive) :
    (walk d settings content (settings.maxIncludeDepth - 1) document directives
      ⟨[root document], []⟩).visited =
      (reachableFrom d settings content document directives).reverse ++ [root document] := by
  have hsearch : walk d settings content (settings.maxIncludeDepth - 1) document directives
      ⟨[root document], []⟩ =
      Walk.extend ⟨[root document], []⟩
        ((listing d settings content document directives).map Prod.fst) :=
    walk_eq_search _ _ _ _ (by simp) (by simpa using isReduced_root)
  rw [hsearch, reachableFrom_eq]
  rfl

/-- **The keys of a walk**, that of the document among them, are not lexically equal. -/
lemma pairwise_visited (d : Disk) (settings : Settings) (content : Content) (document : Path)
    (directives : List Directive) :
    (walk d settings content (settings.maxIncludeDepth - 1) document directives
      ⟨[root document], []⟩).visited.Pairwise
      fun p q => ¬ LexicallyEqual p q := by
  rw [visited_walk]
  refine List.pairwise_append.mpr ⟨?_, List.pairwise_singleton _ _, fun x hx r hr hequal => ?_⟩
  · have hnodup : (reachableFrom d settings content document directives).reverse.Nodup := by
      rw [List.nodup_reverse, reachableFrom_eq]
      exact Graph.nodup_found
    refine hnodup.imp_of_mem fun {x y} hx hy hne hequal => hne ?_
    have hx := (isReduced_of_mem_reachableFrom (List.mem_reverse.mp hx)).1
    have hy := (isReduced_of_mem_reachableFrom (List.mem_reverse.mp hy)).1
    exact hx.eq_of_lexicallyEqual (Or.inl hy) hequal
  · obtain rfl := List.mem_singleton.mp hr
    have hx := List.mem_reverse.mp hx
    have hroot := (isReduced_of_mem_reachableFrom hx).1.eq_of_lexicallyEqual isReduced_root hequal
    rw [reachableFrom_eq] at hx
    exact Graph.not_mem_seen_of_mem_found hx (List.mem_singleton.mpr hroot)

/-- **One key.** An absolute path has a normal form, which is absolute, has no dots and is its own
normal form. It may take the place of the path in front of further steps, and a name with the step
up behind it makes no difference. Paths are lexically equal exactly when they have one normal form,
or both have none.

For every disk and settings, what a directive leads to is found at one of its candidates, and two
such candidates, of any directives and documents, have one key exactly when they are lexically
equal. What a directive leads to, every directive of its kind and document with an interchangeable
name resolves to, and it leads nowhere else. No two keys of a walk are lexically equal. -/
theorem normalForm_canonical (d : Disk) (settings : Settings) :
    (∀ a : Path, a.isAbsolute → ∃ n, a.normalize? = some n ∧ n.isAbsolute ∧ n.IsNormal ∧
      n.normalize? = some n ∧
      ∀ b : Path, ¬ b.isAbsolute → (a.join b).normalize? = (n.join b).normalize? ∧
        ∀ x, IsPart x → (((a.join ⟨x⟩).join up).join b).normalize? = (a.join b).normalize?) ∧
    (∀ p q : Path, LexicallyEqual p q ↔ q.normalize? = p.normalize?) ∧
    (∀ document directive k, target? d settings document directive = some k →
      ∃ c, FoundAt d settings document directive c k) ∧
    (∀ document document' directive directive' c c' k k',
      FoundAt d settings document directive c k →
      FoundAt d settings document' directive' c' k' → (LexicallyEqual c c' ↔ k = k')) ∧
    (∀ document directive directive' k, directive.kind = directive'.kind →
      Interchangeable (spelledPath directive) (spelledPath directive') →
      target? d settings document directive = some k →
      (directive'.spec ≠ [] → resolve d directive' document settings.includePaths = .ok k) ∧
      ∀ k', target? d settings document directive' = some k' → k' = k) ∧
    ∀ content document directives,
      (walk d settings content (settings.maxIncludeDepth - 1) document directives
      ⟨[root document], []⟩).visited.Pairwise fun p q => ¬ LexicallyEqual p q := by
  refine ⟨fun a ha => ?_, fun p q => Path.lexicallyEqual_iff,
    fun document directive k => exists_foundAt,
    fun _ _ _ _ _ _ _ _ h h' => h.2.1.lexicallyEqual_iff h'.2.1, ?_, pairwise_visited d settings⟩
  · have hparts := Path.isPart_of_mem_placeOf a
    refine ⟨_, Path.normalize?_of_isAbsolute ha, Path.isAbsolute_atPlace _,
      Path.isNormal_atPlace hparts,
      Path.normalize?_atPlace hparts, fun b hb => ⟨?_, fun x hx => ?_⟩⟩
    · have hnormal := (Path.lexicallyEqual_atPlace ha).join hb
      exact (Path.lexicallyEqual_iff.mp hnormal).symm
    · have hback : LexicallyEqual (((a.join ⟨x⟩).join up).join b) (a.join b) :=
        .of_respells (.join (.back hx) hb)
      exact (Path.lexicallyEqual_iff.mp hback).symm
  · intro document directive directive' k hkind hnames h
    have hfirst := findSome?_candidates_of_resolve (resolve_of_target? h)
    refine ⟨fun hspec => resolve_of_interchangeable hkind hnames hspec (resolve_of_target? h),
      fun k' h' => ?_⟩
    have hfirst' := findSome?_candidates_of_resolve (resolve_of_target? h')
    rw [← findSome?_candidates_congr hkind hnames, hfirst] at hfirst'
    exact (Option.some.inj hfirst').symm

/-- A library in a directory beside the document. -/
def libraryBeside : Disk :=
  Disk.empty.write (.ofString "/w/lib/a.au3") ⟨[], 1⟩

/-- The library spelled straight, and on a way through a directory that does not exist. -/
theorem normalForm_canonical_beside :
    let document : Path := .ofString "/w/./main.au3"
    let straight : Directive := ⟨.quoted, "lib/a.au3".toList, 0⟩
    let winding : Directive := ⟨.quoted, ".\\x\\..\\lib//a.au3".toList, 1⟩
    let directory : Path := .ofString "/../w/lib/./.."
    let rest : Path := .ofString "../v/b.au3"
    (directory.join rest).normalize? = ((Path.ofString "/w").join rest).normalize? ∧
      (((directory.join (.ofString "tmp")).join up).join rest).normalize? =
        (directory.join rest).normalize? ∧
      LexicallyEqual (.ofString "/w/lib/../a.au3") (.ofString "//w/./a.au3/") ∧
      (∃ c, FoundAt libraryBeside .standard document winding c (.ofString "/w/lib/a.au3")) ∧
      resolve libraryBeside winding document [] = .ok (.ofString "/w/lib/a.au3") ∧
      (walk libraryBeside .standard libraryBeside.text? 31 document [straight, winding]
        ⟨[root document], []⟩).visited =
        [.ofString "/w/lib/a.au3", .ofString "/w/main.au3"] ∧
      ¬ LexicallyEqual (.ofString "/w/lib/a.au3") (.ofString "/w/main.au3") := by
  intro document straight winding directory rest
  obtain ⟨hnormal, hequal, hfound, -, hnames, hvisited⟩ :=
    normalForm_canonical libraryBeside .standard
  obtain ⟨n, hn, -, -, -, hrest⟩ := hnormal directory (by decide)
  obtain rfl : Path.ofString "/w" = n := Option.some.inj (Eq.trans (by decide) hn)
  obtain ⟨hjoin, hback⟩ := hrest rest (by decide)
  have hinterchangeable : Interchangeable (spelledPath straight) (spelledPath winding) := by
    have hstraight : (spelledPath straight).steps = [.name "lib".toList, .name "a.au3".toList] := by
      decide
    have hwinding : (spelledPath winding).steps =
        [.name "x".toList, .parent, .name "lib".toList, .name "a.au3".toList] := by decide
    refine interchangeable_of_steps (by decide) (by decide) fun place => ?_
    simp only [hstraight, hwinding, List.foldl_cons, Path.placeStep, List.dropLast_concat]
  have hstraight : target? libraryBeside .standard document straight =
      some (.ofString "/w/lib/a.au3") := by decide
  have hwinding : target? libraryBeside .standard document winding =
      some (.ofString "/w/lib/a.au3") := by decide
  have hwalk : (walk libraryBeside .standard libraryBeside.text? 31 document [straight, winding]
      ⟨[root document], []⟩).visited = [.ofString "/w/lib/a.au3", .ofString "/w/main.au3"] := by
    decide
  refine ⟨hjoin, hback "tmp".toList ⟨by decide, by decide, by decide, by decide⟩,
    (hequal _ _).mpr (by decide), hfound document winding _ hwinding,
    (hnames document straight winding _ rfl hinterchangeable hstraight).1 (by decide), hwalk, ?_⟩
  have hpairwise := hvisited libraryBeside.text? document [straight, winding]
  rw [show Settings.standard.maxIncludeDepth - 1 = 31 from rfl, hwalk] at hpairwise
  exact List.rel_of_pairwise_cons hpairwise List.mem_cons_self

end Include

end AutoItServer
