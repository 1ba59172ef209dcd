import AutoItServer.Proofs.Graph.Search
import AutoItServer.Proofs.Include.Resolve

/-!
The include graph of a document, and the walk as a search in it.

* `Include.root`, `Include.links`: the document as a node, and the edges. The directives of the
  document are those given, those of another file stand in the text that can be read of it.
* `Include.listing`: the files that the walk meets, each with the number of levels that are left
  below it. A file met with none left is listed, but not followed.
* `walk_eq_search` (**the walk is a search**): following directives adds to what was met exactly
  what a search in the include graph finds.
* `reachableFrom_eq`: the files of a walk are those of the listing.
* `reachableFrom_congr`: the files depend on the edges of the files that are followed only.
-/

namespace AutoItServer

namespace Include

open AutoItServer.Graph (search found)

variable (d : Disk) (settings : Settings) (content : Content) (document : Path)
  (directives : List Directive)

/-! ### Nodes and edges -/

/-- The document as it is met in the graph: by the normal form of its path. -/
def root : Path :=
  document.normalize?.getD document

/-- The files that the directives of a document lead to, in order. -/
def targets : List Path :=
  directives.filterMap (target? d settings document)

/-- The files that a node of the include graph leads to: the document by its own directives, another
file by those of its text, as far as it can be read. -/
def links (x : Path) : List Path :=
  if x = root document then targets d settings document directives
  else match content x with
    | none => []
    | some t => targets d settings x (Directive.findAll t)

/-- The files that a walk meets, with the number of levels that are left below each. -/
def listing : List (Path × Nat) :=
  search (links d settings content document directives) (settings.maxIncludeDepth - 1)
    [root document] (targets d settings document directives)

variable {d settings content document directives}

lemma links_root : links d settings content document directives (root document) =
    targets d settings document directives := by
  rw [links, if_pos rfl]

/-- The edges of a node lead to files, named by normal forms. -/
lemma isReduced_of_mem_targets {x y : Path} {ds : List Directive}
    (h : y ∈ targets d settings x ds) :
    y.IsReduced ∧ d.isFile y := by
  obtain ⟨directive, -, h⟩ := List.mem_filterMap.mp h
  exact isReduced_of_target? h

lemma isReduced_of_mem_links {x y : Path} (h : y ∈ links d settings content document directives x) :
    y.IsReduced ∧ d.isFile y := by
  rw [links] at h
  split_ifs at h
  · exact isReduced_of_mem_targets h
  · split at h
    · exact absurd h List.not_mem_nil
    · exact isReduced_of_mem_targets h

/-- The document is met by a normal form, unless its path has none. -/
lemma isReduced_root : (root document).IsReduced ∨ (root document).normalize? = none := by
  rw [root]
  cases h : document.normalize? with
  | none => exact Or.inr h
  | some q => exact Or.inl (Path.isReduced_of_normalize? h)

/-! ### The walk as a search -/

/-- A file is met once, whatever it is called. -/
lemma meet?_eq {w : Walk} {p : Path} (hp : p.IsReduced)
    (hw : ∀ q ∈ w.visited, q.IsReduced ∨ q.normalize? = none) :
    w.meet? p = if p ∈ w.visited then none else some ⟨p :: w.visited, w.files ++ [p]⟩ := by
  have hany : w.visited.any p.same ↔ p ∈ w.visited := by
    rw [List.any_eq_true]
    constructor
    · rintro ⟨q, hq, hsame⟩
      rwa [(hp.same_iff (hw q hq)).mp hsame]
    · exact fun h => ⟨p, h, Path.same_iff.mpr rfl⟩
  rw [Walk.meet?]
  simp only [hany]

/-- What a walk adds to what was met before. -/
def Walk.extend (w : Walk) (files : List Path) : Walk :=
  ⟨files.reverse ++ w.visited, w.files ++ files⟩

lemma Walk.extend_extend (w : Walk) (a b : List Path) :
    (w.extend a).extend b = w.extend (a ++ b) := by
  simp [extend]

lemma Walk.extend_cons_visited (w : Walk) (p : Path) (a : List Path) :
    (w.extend (p :: a)).visited = a.reverse ++ p :: w.visited := by
  simp [extend]

/-- The nodes met are normal forms, or the document. -/
lemma extend_isReduced {w : Walk} (hw : ∀ q ∈ w.visited, q.IsReduced ∨ q.normalize? = none)
    {files : List Path} (hfiles : ∀ q ∈ files, q.IsReduced) :
    ∀ q ∈ (w.extend files).visited, q.IsReduced ∨ q.normalize? = none := by
  intro q hq
  rcases List.mem_append.mp hq with hq | hq
  · exact Or.inl (hfiles q (List.mem_reverse.mp hq))
  · exact hw q hq

/-- What a search finds are normal forms. -/
lemma isReduced_of_mem_found {k : Nat} {seen ps : List Path}
    (hps : ∀ p ∈ ps, p.IsReduced) {x : Path}
    (hx : x ∈ found (links d settings content document directives) k seen ps) : x.IsReduced := by
  obtain ⟨j, hj⟩ := Graph.mem_found.mp hx
  rcases Graph.search_parent hj with ⟨h, -⟩ | ⟨y, -, h⟩
  · exact hps x h
  · exact (isReduced_of_mem_links h).1

/-- **One directive**: a new file is listed, and below it what a search finds there. -/
lemma walk_singleton {k : Nat} {x p : Path} {directive : Directive} {w : Walk}
    (hwalk : ∀ j < k, ∀ y ds, ∀ v : Walk, root document ∈ v.visited →
      (∀ q ∈ v.visited, q.IsReduced ∨ q.normalize? = none) →
      walk d settings content j y ds v = v.extend
        (found (links d settings content document directives) j v.visited
          (targets d settings y ds)))
    (hroot : root document ∈ w.visited) (hw : ∀ q ∈ w.visited, q.IsReduced ∨ q.normalize? = none)
    (htarget : target? d settings x directive = some p) (hp : p ∉ w.visited) :
    walk d settings content k x [directive] w = w.extend (p ::
      (Graph.below (links d settings content document directives) w.visited p k).map Prod.fst) := by
  have hreduced := (isReduced_of_target? htarget).1
  have hmeet : w.meet? p = some (w.extend [p]) := by
    rw [meet?_eq hreduced hw, if_neg hp]
    rfl
  cases k with
  | zero => simp [walk, htarget, hmeet, Graph.below]
  | succ j =>
    have hne : p ≠ root document := fun h => hp (h ▸ hroot)
    rw [Graph.map_below rfl, links, if_neg hne]
    cases hcontent : content p with
    | none => simp [walk, htarget, hmeet, hcontent]
    | some t =>
      have hrec := hwalk j (by omega) p (Directive.findAll t) (w.extend [p])
        (List.mem_append_right _ hroot) (extend_isReduced hw (by simpa using hreduced))
      simp only [walk, List.foldl_cons, List.foldl_nil, htarget, hmeet, hcontent]
      rw [hrec, Walk.extend_extend]
      rfl

/-- **The walk is a search**: following the directives of a document adds to what was met what the
search from their targets finds. -/
lemma walk_eq_search (k : Nat) (x : Path) (ds : List Directive) (w : Walk)
    (hroot : root document ∈ w.visited) (hw : ∀ q ∈ w.visited, q.IsReduced ∨ q.normalize? = none) :
    walk d settings content k x ds w = w.extend
      (found (links d settings content document directives) k w.visited
        (targets d settings x ds)) := by
  induction k using Nat.strong_induction_on generalizing x ds w with
  | _ k ihk =>
    induction ds generalizing w with
    | nil => cases k <;> simp [walk, targets, Walk.extend]
    | cons directive ds ih =>
      -- one directive, then the others from where it leads
      have hstep : walk d settings content k x (directive :: ds) w =
          walk d settings content k x ds (walk d settings content k x [directive] w) := by
        cases k <;> simp [walk]
      rw [hstep]
      cases htarget : target? d settings x directive with
      | none =>
        have hsame : walk d settings content k x [directive] w = w := by
          cases k <;> simp [walk, htarget]
        rw [hsame, ih w hroot hw, targets, targets, List.filterMap_cons_none htarget]
      | some p =>
        have hreduced := (isReduced_of_target? htarget).1
        rw [targets, List.filterMap_cons_some htarget]
        by_cases hp : p ∈ w.visited
        · have hsame : walk d settings content k x [directive] w = w := by
            have hmeet := meet?_eq hreduced hw
            rw [if_pos hp] at hmeet
            cases k <;> simp [walk, htarget, hmeet]
          rw [hsame, ih w hroot hw, found, found, Graph.search_cons_of_mem hp, targets]
        · have hbelow : ∀ q ∈ p :: (Graph.below (links d settings content document directives)
              w.visited p k).map Prod.fst, q.IsReduced := by
            intro q hq
            rcases List.mem_cons.mp hq with rfl | hq
            · exact hreduced
            · cases k with
              | zero => simp [Graph.below] at hq
              | succ j =>
                rw [Graph.map_below rfl] at hq
                exact isReduced_of_mem_found (fun y hy => (isReduced_of_mem_links hy).1) hq
          rw [walk_singleton ihk hroot hw htarget hp, ih _ (List.mem_append_right _ hroot)
            (extend_isReduced hw hbelow), Walk.extend_extend, Walk.extend_cons_visited,
            Graph.found_cons_of_not_mem hp]
          rfl

/-- **The files of a walk** are those of the listing. -/
lemma reachableFrom_eq : reachableFrom d settings content document directives =
    (listing d settings content document directives).map Prod.fst := by
  have h : walk d settings content (settings.maxIncludeDepth - 1) document directives
      ⟨[root document], []⟩ = Walk.extend ⟨[root document], []⟩
        ((listing d settings content document directives).map Prod.fst) :=
    walk_eq_search _ _ _ _ (by simp) (by simpa using isReduced_root)
  rw [reachableFrom]
  exact (congrArg Walk.files h).trans (by simp [Walk.extend])

/-- What is found is a file, named by a normal form. -/
lemma isReduced_of_mem_reachableFrom {q : Path}
    (hq : q ∈ reachableFrom d settings content document directives) : q.IsReduced ∧ d.isFile q := by
  rw [reachableFrom_eq] at hq
  obtain ⟨j, hj⟩ := Graph.mem_found.mp hq
  rcases Graph.search_parent hj with ⟨h, -⟩ | ⟨y, -, h⟩
  · exact isReduced_of_mem_targets h
  · exact isReduced_of_mem_links h

/-- The files that the document itself names are found. -/
lemma mem_reachableFrom_of_mem_targets {y : Path}
    (hy : y ∈ targets d settings document directives) :
    y = root document ∨ y ∈ reachableFrom d settings content document directives := by
  rw [reachableFrom_eq]
  exact (Graph.mem_seen_or_found hy).imp_left List.mem_singleton.mp

/-! ### What the walk depends on -/

/-- The targets of directives do not depend on their lines. -/
lemma targets_of_spelled {directives' : List Directive}
    (h : directives.map (fun x => (x.kind, x.spec)) = directives'.map fun x => (x.kind, x.spec)) :
    targets d settings document directives = targets d settings document directives' := by
  induction directives generalizing directives' with
  | nil => rw [List.map_eq_nil_iff.mp h.symm]
  | cons x xs ih =>
    cases directives' with
    | nil => simp at h
    | cons y ys =>
      simp only [List.map_cons, List.cons.injEq, Prod.mk.injEq] at h
      obtain ⟨⟨hkind, hspec⟩, h⟩ := h
      have htarget : target? d settings document x = target? d settings document y := by
        simp only [target?, resolve, hkind, hspec]
      simp only [targets, List.filterMap_cons, htarget] at ih ⊢
      rw [ih h]

/-- The walk depends only on the edges of the files that are listed and have all their targets
met. -/
lemma reachableFrom_congr {d' : Disk} {settings' : Settings} {content' : Content}
    {directives' : List Directive}
    (hdepth : settings'.maxIncludeDepth = settings.maxIncludeDepth)
    (hroot : targets d' settings' document directives' = targets d settings document directives)
    (hlinks : ∀ x ∈ reachableFrom d settings content document directives, x ≠ root document →
      (∀ y ∈ links d settings content document directives x, y = root document ∨
        y ∈ reachableFrom d settings content document directives) →
      links d' settings' content' document directives' x =
        links d settings content document directives x) :
    reachableFrom d' settings' content' document directives' =
      reachableFrom d settings content document directives := by
  rw [reachableFrom_eq, reachableFrom_eq, listing, listing, hdepth, hroot]
  rw [reachableFrom_eq, listing] at hlinks
  congr 1
  refine Graph.search_congr fun x hx hclosed => hlinks x hx ?_ fun y hy => ?_
  · exact fun h => Graph.not_mem_seen_of_mem_found hx (by simp [h])
  · exact (hclosed y hy).imp_left List.mem_singleton.mp

end Include

end AutoItServer
