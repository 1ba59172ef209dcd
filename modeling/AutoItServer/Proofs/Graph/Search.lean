import Mathlib.Data.List.Basic
import Mathlib.Data.Set.Card
import Mathlib.Tactic.Lemma

/-!
Depth-first search with a limit on the levels, on a graph given by the list of successors of a node.

* `Graph.search`: lists the nodes in the order in which they are met, each with the number of levels
  that are left below it. A node met with no level left is listed, but its successors are not
  followed, also when it is met again where there would be levels left.
* `Graph.Explores`: the search without limit, as a relation. `Explores.unique`: it has at most one
  result.
* `Graph.Chain`: a node joined to another one by a number of edges, through nodes of some kind.
* `search_parent`, `search_closed`: the two directions of the invariant. A listed node is a
  successor of a node with one more level left, and a node with a level left has all its successors
  listed.
* `explores_search` (**the limit cuts nothing off in a small graph**): when at most `k + 1` nodes
  remain to be met, the search with `k` levels below the first ones is the search without limit.
* `search_congr`: the search depends only on the successors of the nodes it follows.
-/

namespace AutoItServer

namespace Graph

variable {α : Type} {next : α → List α} {seen ps : List α}

/-! ### Chains -/

/-- A node joined to `root` by a chain of `n` edges whose inner nodes are all of the kind
`through`. -/
inductive Chain (next : α → List α) (through : α → Prop) (root : α) : Nat → α → Prop
  | start : Chain next through root 0 root
  | step {n : Nat} {x y : α} (chain : Chain next through root n x) (hx : x = root ∨ through x)
      (hy : y ∈ next x) : Chain next through root (n + 1) y

/-- Chains lead only to a set that holds the root and is closed under the edges they may take. -/
lemma Chain.mem {through : α → Prop} {root x : α} {n : Nat} (h : Chain next through root n x)
    {C : α → Prop} (hroot : C root)
    (hstep : ∀ x y, C x → x = root ∨ through x → y ∈ next x → C y) : C x := by
  induction h with
  | start => exact hroot
  | step chain hx hy ih => exact hstep _ _ ih hx hy

/-- A chain through nodes of a narrower kind is one through nodes of a wider kind. -/
lemma Chain.mono {through through' : α → Prop} {root x : α} {n : Nat}
    (h : Chain next through root n x) (hle : ∀ x, through x → through' x) :
    Chain next through' root n x := by
  induction h with
  | start => exact .start
  | step chain hx hy ih => exact .step ih (hx.imp_right (hle _)) hy

/-! ### The search without limit -/

/-- Depth-first search without limit: `Explores next seen ps found` says that the search from `ps`
ends and meets `found`, in this order. -/
inductive Explores (next : α → List α) : List α → List α → List α → Prop
  | nil (seen : List α) : Explores next seen [] []
  | skip {seen : List α} {p : α} {ps found : List α} (hp : p ∈ seen)
      (rest : Explores next seen ps found) : Explores next seen (p :: ps) found
  | enter {seen : List α} {p : α} {ps inner outer : List α} (hp : p ∉ seen)
      (inside : Explores next (p :: seen) (next p) inner)
      (rest : Explores next (inner.reverse ++ p :: seen) ps outer) :
      Explores next seen (p :: ps) (p :: (inner ++ outer))

/-- The search without limit has at most one result. -/
lemma Explores.unique {xs ys : List α} (hx : Explores next seen ps xs)
    (hy : Explores next seen ps ys) : xs = ys := by
  induction hx generalizing ys with
  | nil seen => cases hy; rfl
  | skip hp rest ih =>
    cases hy with
    | skip _ rest' => exact ih rest'
    | enter hp' _ _ => exact absurd hp hp'
  | enter hp inside rest ihi iho =>
    cases hy with
    | skip hp' _ => exact absurd hp' hp
    | enter _ inside' rest' =>
      obtain rfl := ihi inside'
      rw [iho rest']

/-- The search without limit finds nothing where all is seen. -/
lemma explores_of_forall_mem_seen (h : ∀ p ∈ ps, p ∈ seen) : Explores next seen ps [] := by
  induction ps with
  | nil => exact .nil seen
  | cons p ps ih =>
    exact .skip (h p List.mem_cons_self) (ih fun q hq => h q (List.mem_cons_of_mem _ hq))

/-- What is met below an entered node is met. -/
lemma met_of_below {p y : α} {inner : List α} (outer : List α) (h : y ∈ p :: seen ∨ y ∈ inner) :
    y ∈ seen ∨ y ∈ p :: (inner ++ outer) := by
  rcases h with h | h
  · rcases List.mem_cons.mp h with rfl | h
    · exact Or.inr List.mem_cons_self
    · exact Or.inl h
  · exact Or.inr (List.mem_cons_of_mem _ (List.mem_append_left _ h))

/-- What is met after an entered node and the nodes below it is met. -/
lemma met_of_rest {p y : α} {inner outer : List α}
    (h : y ∈ inner.reverse ++ p :: seen ∨ y ∈ outer) : y ∈ seen ∨ y ∈ p :: (inner ++ outer) := by
  rcases h with h | h
  · refine met_of_below outer ?_
    rcases List.mem_append.mp h with h | h
    · exact Or.inr (List.mem_reverse.mp h)
    · exact Or.inl h
  · exact Or.inr (List.mem_cons_of_mem _ (List.mem_append_right _ h))

/-- The nodes searched from without limit are met. -/
lemma Explores.covers {xs : List α} (h : Explores next seen ps xs) {x : α} (hx : x ∈ ps) :
    x ∈ seen ∨ x ∈ xs := by
  induction h with
  | nil seen => exact absurd hx List.not_mem_nil
  | skip hp rest ih =>
    rcases List.mem_cons.mp hx with rfl | hx
    · exact Or.inl hp
    · exact ih hx
  | enter hp inside rest ihi iho =>
    rcases List.mem_cons.mp hx with rfl | hx
    · exact Or.inr List.mem_cons_self
    · exact met_of_rest (iho hx)

/-- What is found without limit has all its successors met. -/
lemma Explores.closed {xs : List α} (h : Explores next seen ps xs) {x y : α} (hx : x ∈ xs)
    (hy : y ∈ next x) : y ∈ seen ∨ y ∈ xs := by
  induction h with
  | nil seen => exact absurd hx List.not_mem_nil
  | skip hp rest ih => exact ih hx
  | @enter seen p ps inner outer hp inside rest ihi iho =>
    rw [List.mem_cons, List.mem_append] at hx
    rcases hx with rfl | hx | hx
    · exact met_of_below outer (inside.covers hy)
    · exact met_of_below outer (ihi hx)
    · exact met_of_rest (iho hx)

variable [DecidableEq α]

/-! ### The search and its nodes -/

/-- Depth-first search from the given nodes, with `k` levels below them. Nodes in `seen` are not
entered. Each node is listed with the number of levels that were left below it. -/
def search (next : α → List α) : Nat → List α → List α → List (α × Nat)
  | _, _, [] => []
  | 0, seen, p :: ps =>
    if p ∈ seen then search next 0 seen ps else (p, 0) :: search next 0 (p :: seen) ps
  | k + 1, seen, p :: ps =>
    if p ∈ seen then search next (k + 1) seen ps
    else
      let below := search next k (p :: seen) (next p)
      (p, k + 1) :: (below ++ search next (k + 1) ((below.map Prod.fst).reverse ++ p :: seen) ps)
termination_by k _ ps => (k, ps.length)

/-- The nodes that a search lists. -/
def found (next : α → List α) (k : Nat) (seen ps : List α) : List α :=
  (search next k seen ps).map Prod.fst

variable {k : Nat}

lemma mem_found {x : α} : x ∈ found next k seen ps ↔ ∃ j, (x, j) ∈ search next k seen ps := by
  simp [found]

@[simp] lemma search_nil : search next k seen [] = [] := by
  cases k <;> rw [search]

@[simp] lemma found_nil : found next k seen [] = [] := by
  rw [found, search_nil, List.map_nil]

/-- A node met before is passed over. -/
lemma search_cons_of_mem {p : α} (hp : p ∈ seen) :
    search next k seen (p :: ps) = search next k seen ps := by
  cases k <;> rw [search, if_pos hp]

/-- The nodes below a node that is entered with `k` levels left below it. -/
def below (next : α → List α) (seen : List α) (p : α) : Nat → List (α × Nat)
  | 0 => []
  | k + 1 => search next k (p :: seen) (next p)

/-- A new node is listed, then what is below it, then the rest. -/
lemma search_cons_of_not_mem {p : α} (hp : p ∉ seen) :
    search next k seen (p :: ps) = (p, k) :: (below next seen p k ++
      search next k (((below next seen p k).map Prod.fst).reverse ++ p :: seen) ps) := by
  cases k with
  | zero => rw [search, if_neg hp]; rfl
  | succ k => rw [search, if_neg hp]; rfl

/-- Induction along the search: a node met before is passed over, and for a new node the property is
known of the search below it, if there is a level left, and of the rest. -/
@[elab_as_elim]
lemma search_induction (next : α → List α) {P : Nat → List α → List α → Prop}
    (nil : ∀ k seen, P k seen [])
    (skip : ∀ k seen p ps, p ∈ seen → P k seen ps → P k seen (p :: ps))
    (enter : ∀ k seen p ps, p ∉ seen → (∀ j, k = j + 1 → P j (p :: seen) (next p)) →
      P k (((below next seen p k).map Prod.fst).reverse ++ p :: seen) ps → P k seen (p :: ps))
    (k : Nat) (seen ps : List α) : P k seen ps := by
  induction k using Nat.strong_induction_on generalizing seen ps with
  | _ k ihk =>
    induction ps generalizing seen with
    | nil => exact nil k seen
    | cons p ps ih =>
      by_cases hp : p ∈ seen
      · exact skip k seen p ps hp (ih seen)
      · refine enter k seen p ps hp (fun j hj => ?_) (ih _)
        exact ihk j (by omega) _ _

/-- What is found below a node is found by a search of one level less. -/
lemma map_below {p : α} {j : Nat} (hj : k = j + 1) :
    (below next seen p k).map Prod.fst = found next j (p :: seen) (next p) := by
  subst hj
  rfl

/-- The nodes found, when the first one is new. -/
lemma found_cons_of_not_mem {p : α} (hp : p ∉ seen) :
    found next k seen (p :: ps) = p :: ((below next seen p k).map Prod.fst ++
      found next k (((below next seen p k).map Prod.fst).reverse ++ p :: seen) ps) := by
  rw [found, search_cons_of_not_mem hp, List.map_cons, List.map_append]
  rfl

/-- Only new nodes are found. -/
lemma not_mem_seen_of_mem_found {x : α} (hx : x ∈ found next k seen ps) : x ∉ seen := by
  induction k, seen, ps using search_induction next with
  | nil k seen => simp at hx
  | skip k seen p ps hp ih =>
    rw [found, search_cons_of_mem hp] at hx
    exact ih hx
  | enter k seen p ps hp ihb ih =>
    rw [found_cons_of_not_mem hp] at hx
    rcases List.mem_cons.mp hx with rfl | hx
    · exact hp
    · rcases List.mem_append.mp hx with hx | hx
      · cases k with
        | zero => exact absurd hx (by simp [below])
        | succ j => exact fun h => ihb j rfl (by rwa [← map_below rfl]) (List.mem_cons_of_mem _ h)
      · exact fun h => ih hx (List.mem_append_right _ (List.mem_cons_of_mem _ h))

/-- No node is found twice. -/
lemma nodup_found : (found next k seen ps).Nodup := by
  induction k, seen, ps using search_induction next with
  | nil k seen => simp
  | skip k seen p ps hp ih => rwa [found, search_cons_of_mem hp]
  | enter k seen p ps hp ihb ih =>
    have hbelow : ((below next seen p k).map Prod.fst).Nodup ∧
        p ∉ (below next seen p k).map Prod.fst := by
      cases k with
      | zero => simp [below]
      | succ j =>
        rw [map_below rfl]
        exact ⟨ihb j rfl, fun h => not_mem_seen_of_mem_found h List.mem_cons_self⟩
    rw [found_cons_of_not_mem hp, List.nodup_cons, List.nodup_append]
    refine ⟨fun h => ?_, hbelow.1, ih, ?_⟩
    · rcases List.mem_append.mp h with h | h
      · exact hbelow.2 h
      · exact not_mem_seen_of_mem_found h (by simp)
    · rintro x hx y hy rfl
      exact not_mem_seen_of_mem_found hy (by simp [hx])

/-- The nodes searched from are met. -/
lemma mem_seen_or_found {x : α} (hx : x ∈ ps) : x ∈ seen ∨ x ∈ found next k seen ps := by
  induction k, seen, ps using search_induction next with
  | nil k seen => simp at hx
  | skip k seen p ps hp ih =>
    rw [found, search_cons_of_mem hp]
    rcases List.mem_cons.mp hx with rfl | hx
    · exact Or.inl hp
    · exact ih hx
  | enter k seen p ps hp ihb ih =>
    rw [found_cons_of_not_mem hp]
    rcases List.mem_cons.mp hx with rfl | hx
    · exact Or.inr List.mem_cons_self
    · exact met_of_rest (ih hx)

/-! ### The invariant -/

/-- A listed node is one of those searched from, with all levels left, or a successor of a listed
node with one more level left. -/
lemma search_parent {x : α} {j : Nat} (hx : (x, j) ∈ search next k seen ps) :
    (x ∈ ps ∧ j = k) ∨ ∃ y, (y, j + 1) ∈ search next k seen ps ∧ x ∈ next y := by
  induction k, seen, ps using search_induction next with
  | nil k seen => simp at hx
  | skip k seen p ps hp ih =>
    rw [search_cons_of_mem hp] at hx ⊢
    rcases ih hx with ⟨h, hj⟩ | h
    · exact Or.inl ⟨List.mem_cons_of_mem _ h, hj⟩
    · exact Or.inr h
  | enter k seen p ps hp ihb ih =>
    rw [search_cons_of_not_mem hp] at hx ⊢
    simp only [List.mem_cons, List.mem_append, Prod.mk.injEq] at hx ⊢
    rcases hx with ⟨rfl, rfl⟩ | hx | hx
    · exact Or.inl ⟨Or.inl rfl, rfl⟩
    · cases k with
      | zero => exact absurd hx (by simp [below])
      | succ i =>
        rcases ihb i rfl hx with ⟨h, rfl⟩ | ⟨y, hy, hxy⟩
        · exact Or.inr ⟨p, Or.inl ⟨rfl, rfl⟩, h⟩
        · exact Or.inr ⟨y, Or.inr (Or.inl hy), hxy⟩
    · rcases ih hx with ⟨h, hj⟩ | ⟨y, hy, hxy⟩
      · exact Or.inl ⟨Or.inr h, hj⟩
      · exact Or.inr ⟨y, Or.inr (Or.inr hy), hxy⟩

/-- A listed node with a level left has all its successors listed, as far as they are new. -/
lemma search_closed {x y : α} {j : Nat} (hx : (x, j + 1) ∈ search next k seen ps)
    (hy : y ∈ next x) :
    y ∈ seen ∨ y ∈ found next k seen ps := by
  induction k, seen, ps using search_induction next with
  | nil k seen => simp at hx
  | skip k seen p ps hp ih =>
    rw [found, search_cons_of_mem hp]
    rw [search_cons_of_mem hp] at hx
    exact ih hx
  | enter k seen p ps hp ihb ih =>
    rw [search_cons_of_not_mem hp] at hx
    rw [found_cons_of_not_mem hp]
    rw [List.mem_cons, List.mem_append, Prod.mk.injEq] at hx
    rcases hx with ⟨rfl, rfl⟩ | hx | hx
    · rw [map_below rfl]
      exact met_of_below _ (mem_seen_or_found hy)
    · cases k with
      | zero => exact absurd hx (by simp [below])
      | succ i =>
        rw [map_below rfl]
        exact met_of_below _ (ihb i rfl hx)
    · exact met_of_rest (ih hx)

/-- **The search depends only on the nodes it follows**: with other successors of nodes that are not
listed, or of nodes that have a successor which is neither listed nor seen before, it is the
same. -/
lemma search_congr {next' : α → List α}
    (h : ∀ x ∈ found next k seen ps, (∀ y ∈ next x, y ∈ seen ∨ y ∈ found next k seen ps) →
      next' x = next x) :
    search next' k seen ps = search next k seen ps := by
  induction k, seen, ps using search_induction next with
  | nil k seen => simp
  | skip k seen p ps hp ih =>
    rw [found, search_cons_of_mem hp] at h
    rw [search_cons_of_mem hp, search_cons_of_mem hp]
    exact ih h
  | enter k seen p ps hp ihb ih =>
    have hfound : found next k seen (p :: ps) = _ := found_cons_of_not_mem hp
    have hbelow : below next' seen p k = below next seen p k := by
      cases k with
      | zero => rfl
      | succ j =>
        have hlisted : (p, j + 1) ∈ search next (j + 1) seen (p :: ps) := by
          rw [search_cons_of_not_mem hp]
          exact List.mem_cons_self
        have hp' : next' p = next p :=
          h p (mem_found.mpr ⟨_, hlisted⟩) fun y hy => search_closed hlisted hy
        rw [below, below, hp']
        refine ihb j rfl fun x hx hclosed => h x ?_ fun y hy => ?_
        · rw [hfound, map_below rfl]
          simp [hx]
        · rw [hfound, map_below rfl]
          exact met_of_below _ (hclosed y hy)
    rw [search_cons_of_not_mem hp, search_cons_of_not_mem hp, hbelow]
    congr 2
    refine ih fun x hx hclosed => h x ?_ fun y hy => ?_
    · rw [hfound]
      simp [hx]
    · rw [hfound]
      exact met_of_rest (hclosed y hy)

/-! ### Limit and chains -/

/-- **The limit cuts nothing off in a small graph**: in a set closed under successors of which at
most `k + 1` nodes are not seen, the search with `k` levels below the first nodes is the one without
limit. Each level entered leaves one node less to be met, so where no level is left there is nothing
new. -/
lemma explores_search {R : Set α} (hR : ∀ x ∈ R, ∀ y ∈ next x, y ∈ R) (hps : ∀ p ∈ ps, p ∈ R)
    (hcard : (R \ {x | x ∈ seen}).encard ≤ k + 1) :
    Explores next seen ps (found next k seen ps) := by
  induction k, seen, ps using search_induction next with
  | nil k seen =>
    rw [found_nil]
    exact .nil seen
  | skip k seen p ps hp ih =>
    rw [found, search_cons_of_mem hp]
    exact .skip hp (ih (fun q hq => hps q (List.mem_cons_of_mem _ hq)) hcard)
  | enter k seen p ps hp ihb ih =>
    have hpR : p ∈ R := hps p List.mem_cons_self
    -- entering `p` uses up one of the nodes that remain
    have hless : (R \ {x | x ∈ p :: seen}).encard ≤ k := by
      have hinsert : R \ {x | x ∈ seen} = insert p (R \ {x | x ∈ p :: seen}) := by
        ext x
        by_cases hx : x = p
        · subst hx
          simp [hpR, hp]
        · simp [hx]
      rw [hinsert, Set.encard_insert_of_notMem (by simp)] at hcard
      exact (ENat.add_le_add_iff_right (by simp)).mp hcard
    rw [found_cons_of_not_mem hp]
    refine .enter hp ?_ (ih (fun q hq => hps q (List.mem_cons_of_mem _ hq)) ?_)
    · cases k with
      | zero =>
        refine explores_of_forall_mem_seen fun q hq => ?_
        have hempty : R \ {x | x ∈ p :: seen} = ∅ := by simpa using hless
        by_contra hq'
        exact Set.notMem_empty q (hempty ▸ ⟨hR p hpR q hq, hq'⟩)
      | succ j =>
        rw [map_below rfl]
        exact ihb j rfl (fun q hq => hR p hpR q hq) (by exact_mod_cast hless)
    · refine le_trans (Set.encard_le_encard fun x hx => ?_) hcard
      exact ⟨hx.1, fun h => hx.2 (by simp [show x ∈ seen from h])⟩

/-- No node has more levels left than the first ones. -/
lemma level_le {x : α} {j : Nat} (hx : (x, j) ∈ search next k seen ps) : j ≤ k := by
  induction k, seen, ps using search_induction next with
  | nil k seen => simp at hx
  | skip k seen p ps hp ih =>
    rw [search_cons_of_mem hp] at hx
    exact ih hx
  | enter k seen p ps hp ihb ih =>
    rw [search_cons_of_not_mem hp] at hx
    simp only [List.mem_cons, List.mem_append, Prod.mk.injEq] at hx
    rcases hx with ⟨_, rfl⟩ | hx | hx
    · exact le_rfl
    · cases k with
      | zero => exact absurd hx (by simp [below])
      | succ i => exact Nat.le_succ_of_le (ihb i rfl hx)
    · exact ih hx

/-- **Listed nodes are joined to the root**: a node listed with `j` of `k` levels left is joined to
the root by `k - j + 1` edges, through nodes that were listed with a level left. -/
lemma chain_of_mem_search {root x : α} {j : Nat} (hx : (x, j) ∈ search next k seen (next root)) :
    Chain next (fun y => ∃ i, (y, i + 1) ∈ search next k seen (next root)) root (k - j + 1) x := by
  -- from the parent, which has one more level left
  induction hd : k - j generalizing j x with
  | zero =>
    rcases search_parent hx with ⟨h, _⟩ | ⟨y, hy, _⟩
    · exact .step .start (Or.inl rfl) h
    · have := level_le hy
      omega
  | succ m ih =>
    rcases search_parent hx with ⟨_, rfl⟩ | ⟨y, hy, hxy⟩
    · omega
    · exact .step (ih hy (by omega)) (Or.inr ⟨j, hy⟩) hxy

end Graph

end AutoItServer
