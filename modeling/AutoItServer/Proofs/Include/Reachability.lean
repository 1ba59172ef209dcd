import AutoItServer.Proofs.Include.Graph

/-!
What a walk finds.

* `Include.connected`: the files that some chain of directives joins to the document.
* `reachable_eq_depthFirst` (**the walk and reachability**): the files found are distinct, none is
  the document, each exists and is joined to the document by a chain within the depth limit; and
  when the document has no more files joined to it than the limit, the walk finds all of them, in
  the order of the search without limit.
* `mem_reachable_iff_chain` (**what the limit loses**): a file within the limit is found exactly
  when some chain within the limit leads to it without passing through a file that was first met at
  the limit. `shortcut_lost`: there are files for which no chain does.
-/

namespace AutoItServer

namespace Include

open AutoItServer.Graph (Chain Explores)

variable (d : Disk) (settings : Settings) (content : Content) (document : Path) (t : Text)

/-- The include graph of a document with a text. -/
abbrev linksOf : Path → List Path :=
  links d settings content document (Directive.findAll t)

/-- A file joined to the document by a chain of `n` directives. -/
def Joined (n : Nat) (q : Path) : Prop :=
  Chain (linksOf d settings content document t) (fun _ => True) (root document) n q

/-- The files joined to the document by directives, itself left out. -/
def connected : Set Path :=
  {q | q ≠ root document ∧ ∃ n, Joined d settings content document t n q}

variable {d settings content document t}

/-! ### Within the limit -/

lemma mem_reachable {q : Path} : q ∈ reachable d settings content document t ↔
    ∃ j, (q, j) ∈ listing d settings content document (Directive.findAll t) := by
  simp [reachable, reachableFrom_eq]

/-- The document itself is not listed. -/
lemma ne_root_of_mem_reachable {q : Path} (hq : q ∈ reachable d settings content document t) :
    q ≠ root document := by
  rw [reachable, reachableFrom_eq] at hq
  exact fun h => Graph.not_mem_seen_of_mem_found hq (by simp [h])

/-- No file is listed twice. -/
lemma nodup_reachable : (reachable d settings content document t).Nodup := by
  rw [reachable, reachableFrom_eq]
  exact Graph.nodup_found

/-- A listed file is joined to the document through files that were listed with a level left. -/
lemma chain_of_mem_listing {q : Path} {j : Nat}
    (hq : (q, j) ∈ listing d settings content document (Directive.findAll t)) :
    Chain (linksOf d settings content document t)
      (fun x => ∃ i, (x, i + 1) ∈ listing d settings content document (Directive.findAll t))
      (root document) (settings.maxIncludeDepth - 1 - j + 1) q := by
  rw [listing, ← links_root] at hq ⊢
  exact Graph.chain_of_mem_search hq

/-! ### Reachability -/

/-- The nodes joined to the document are closed under directives. -/
lemma joined_links {x y : Path} (hx : ∃ n, Joined d settings content document t n x)
    (hy : y ∈ linksOf d settings content document t x) :
    ∃ n, Joined d settings content document t n y := by
  obtain ⟨n, hn⟩ := hx
  exact ⟨n + 1, .step hn (Or.inr trivial) hy⟩

/-- In a small graph the walk is the search without limit. -/
lemma explores_reachable
    (hcard : (connected d settings content document t).encard ≤ settings.maxIncludeDepth) :
    Explores (linksOf d settings content document t) [root document]
      (linksOf d settings content document t (root document))
      (reachable d settings content document t) := by
  rw [reachable, reachableFrom_eq, listing, linksOf, links_root]
  refine Graph.explores_search (R := {q | ∃ n, Joined d settings content document t n q}) ?_ ?_ ?_
  · exact fun x hx y hy => joined_links hx hy
  · intro p hp
    refine ⟨1, .step .start (Or.inl rfl) ?_⟩
    rwa [linksOf, links_root]
  · have hset : {q | ∃ n, Joined d settings content document t n q} \ {x | x ∈ [root document]} =
        connected d settings content document t := by
      ext q
      simp [connected, and_comm]
    rw [hset]
    refine hcard.trans ?_
    norm_cast
    omega

/-- Files closed under directives are all that is joined to the document. -/
lemma mem_iff_of_closed {files : List Path}
    (hsound : ∀ q ∈ files, q ∈ connected d settings content document t)
    (hroot : ∀ y ∈ linksOf d settings content document t (root document),
      y = root document ∨ y ∈ files)
    (hclosed : ∀ x ∈ files, ∀ y ∈ linksOf d settings content document t x,
      y = root document ∨ y ∈ files) (q : Path) :
    q ∈ files ↔ q ∈ connected d settings content document t := by
  refine ⟨hsound q, fun ⟨hne, n, hn⟩ => ?_⟩
  refine (hn.mem (C := fun q => q = root document ∨ q ∈ files) (Or.inl rfl)
    fun x y hx _ hy => ?_).resolve_left hne
  rcases hx with rfl | hx
  · exact hroot y hy
  · exact hclosed x hx y hy

/-- What is found is joined to the document, within the limit. -/
lemma joined_of_mem_reachable {q : Path} (hq : q ∈ reachable d settings content document t) :
    ∃ n ≤ max 1 settings.maxIncludeDepth, Joined d settings content document t n q := by
  obtain ⟨j, hj⟩ := mem_reachable.mp hq
  exact ⟨_, by omega, (chain_of_mem_listing hj).mono fun _ _ => trivial⟩

/-- What is found is joined to the document. -/
lemma mem_connected_of_mem_reachable {q : Path} (hq : q ∈ reachable d settings content document t) :
    q ∈ connected d settings content document t := by
  obtain ⟨n, -, hn⟩ := joined_of_mem_reachable hq
  exact ⟨ne_root_of_mem_reachable hq, n, hn⟩

/-- The files that the document itself names are listed. -/
lemma mem_reachable_of_mem_root {y : Path}
    (hy : y ∈ linksOf d settings content document t (root document)) :
    y = root document ∨ y ∈ reachable d settings content document t := by
  rw [linksOf, links_root] at hy
  exact mem_reachableFrom_of_mem_targets hy

/-- **The walk and reachability.** For every disk, contents, settings with a positive depth limit
and document with an absolute path: no file is found twice, the document is not found, and each file
found is the normal form of a path to a file and is joined to the document by a chain of at most as
many directives as the limit. When no more files than the limit are joined to the document, the walk
finds all of them, in the order of the depth-first search without limit. -/
theorem reachable_eq_depthFirst (d : Disk) (settings : Settings) (content : Content)
    (document : Path) (t : Text) (hdepth : 1 ≤ settings.maxIncludeDepth)
    (habs : document.isAbsolute) :
    (reachable d settings content document t).Pairwise (fun p q => ¬ p.same q) ∧
    (∃ r, document.normalize? = some r ∧
      ∀ q ∈ reachable d settings content document t, ¬ q.same r) ∧
    (∀ q ∈ reachable d settings content document t, q.normalize? = some q ∧ d.isFile q ∧
      ∃ n ≤ settings.maxIncludeDepth, Joined d settings content document t n q) ∧
    ((connected d settings content document t).encard ≤ settings.maxIncludeDepth →
      (∀ q, q ∈ reachable d settings content document t ↔
        q ∈ connected d settings content document t) ∧
      ∀ files, Explores (linksOf d settings content document t) [root document]
        (linksOf d settings content document t (root document)) files ↔
        files = reachable d settings content document t) := by
  have hroot : document.normalize? = some (root document) := by
    rw [root, Path.normalize?_of_isAbsolute habs]
    rfl
  have hmax : max 1 settings.maxIncludeDepth = settings.maxIncludeDepth := by omega
  refine ⟨?_, ⟨root document, hroot, fun q hq => ?_⟩, fun q hq => ?_, fun hcard => ?_⟩
  · refine nodup_reachable.imp_of_mem fun {p q} hp hq hne hsame => hne ?_
    exact ((isReduced_of_mem_reachableFrom hp).1.same_iff
      (Or.inl (isReduced_of_mem_reachableFrom hq).1)).mp hsame
  · rw [(isReduced_of_mem_reachableFrom hq).1.same_iff isReduced_root]
    exact ne_root_of_mem_reachable hq
  · obtain ⟨hreduced, hfile⟩ := isReduced_of_mem_reachableFrom hq
    exact ⟨hreduced, hfile, hmax ▸ joined_of_mem_reachable hq⟩
  · have hexplores := explores_reachable hcard
    refine ⟨mem_iff_of_closed (fun q => mem_connected_of_mem_reachable) ?_ ?_, fun files => ?_⟩
    · exact fun y => mem_reachable_of_mem_root
    · exact fun x hx y hy => (hexplores.closed hx hy).imp_left List.mem_singleton.mp
    · exact ⟨fun h => h.unique hexplores, fun h => h ▸ hexplores⟩

/-- Two files that include each other; one includes the document, the other itself. -/
def ringDisk : Disk :=
  (Disk.empty.write (.ofString "/w/a.au3")
    ⟨File.encode "#include \"b.au3\"\n#include \"main.au3\"".toList, 0⟩).write
    (.ofString "/w/b.au3") ⟨File.encode "#include \"../w/a.au3\"\n#include \".\\b.au3\"".toList, 0⟩

/-- A document that includes one of the two files, and one that is not there. -/
def ringText : Text :=
  "#include \"none.au3\"\n#include \"a.au3\"".toList

/-- The include graph of the document in the ring. -/
def ringLinks : Path → List Path :=
  linksOf ringDisk Settings.standard ringDisk.text? (.ofString "/w/./main.au3") ringText

lemma connected_ring : connected ringDisk Settings.standard ringDisk.text?
    (.ofString "/w/./main.au3") ringText ⊆ {.ofString "/w/a.au3", .ofString "/w/b.au3"} := by
  have hnext : ∀ x ∈ [root (.ofString "/w/./main.au3"), .ofString "/w/a.au3", .ofString "/w/b.au3"],
      ∀ y ∈ ringLinks x,
        y ∈ [root (.ofString "/w/./main.au3"), .ofString "/w/a.au3", .ofString "/w/b.au3"] := by
    decide +kernel
  rintro q ⟨hne, n, hn⟩
  have hmem := hn.mem (C := fun q =>
    q ∈ [root (.ofString "/w/./main.au3"), .ofString "/w/a.au3", .ofString "/w/b.au3"])
    List.mem_cons_self fun x y hx _ hy => hnext x hx y hy
  simpa [hne] using hmem

/-- The ring is walked in the order of the search without limit, each file once. -/
theorem ring_explored : Settings.standard.maxIncludeDepth = 32 ∧
    Explores ringLinks [root (.ofString "/w/./main.au3")]
      (ringLinks (root (.ofString "/w/./main.au3")))
      [.ofString "/w/a.au3", .ofString "/w/b.au3"] := by
  have h := reachable_eq_depthFirst ringDisk Settings.standard ringDisk.text?
    (.ofString "/w/./main.au3") ringText (by decide) (by decide)
  have hcard : (connected ringDisk Settings.standard ringDisk.text? (.ofString "/w/./main.au3")
      ringText).encard ≤ Settings.standard.maxIncludeDepth :=
    (Set.encard_le_encard connected_ring).trans ((Set.encard_insert_le _ _).trans (by
      rw [Set.encard_singleton]
      exact_mod_cast (by decide : 1 + 1 ≤ Settings.standard.maxIncludeDepth)))
  exact ⟨rfl, ((h.2.2.2 hcard).2 _).mpr (by decide +kernel)⟩

/-! ### At the limit -/

/-- A file is listed with one number of levels left. -/
lemma level_unique {x : Path} {i j : Nat}
    (hi : (x, i) ∈ listing d settings content document (Directive.findAll t))
    (hj : (x, j) ∈ listing d settings content document (Directive.findAll t)) : i = j := by
  have hnodup : ((listing d settings content document (Directive.findAll t)).map Prod.fst).Nodup :=
    Graph.nodup_found
  exact (Prod.mk.inj (List.inj_on_of_nodup_map hnodup hi hj rfl)).2

/-- A chain on which no file was first met at the limit leads to a listed file. -/
lemma mem_reachable_of_chain {m : Nat} {q : Path} (hq : q ≠ root document)
    (h : Chain (linksOf d settings content document t)
      (fun x => (x, 0) ∉ listing d settings content document (Directive.findAll t))
      (root document) m q) : q ∈ reachable d settings content document t := by
  refine (h.mem (C := fun q => q = root document ∨ q ∈ reachable d settings content document t)
    (Or.inl rfl) fun x y hx hthrough hy => ?_).resolve_left hq
  by_cases hroot : x = root document
  · exact mem_reachable_of_mem_root (hroot ▸ hy)
  · -- a listed file that was not met at the limit has a level left
    obtain ⟨j, hj⟩ := mem_reachable.mp (hx.resolve_left hroot)
    cases j with
    | zero => exact absurd hj (hthrough.resolve_left hroot)
    | succ j =>
      rw [reachable, reachableFrom_eq]
      exact (Graph.search_closed hj hy).imp_left List.mem_singleton.mp

/-- **What the limit loses.** A file other than the document that is joined to it by a chain of at
most as many directives as the limit is found exactly when there is such a chain on which no file in
between was first met at the limit, where a file is listed but not followed. -/
theorem mem_reachable_iff_chain (d : Disk) (settings : Settings) (content : Content)
    (document : Path) (t : Text) {n : Nat} {q : Path} (hn : n ≤ settings.maxIncludeDepth)
    (hq : q ≠ root document) (hjoined : Joined d settings content document t n q) :
    (listing d settings content document (Directive.findAll t)).map Prod.fst =
      reachable d settings content document t ∧
    (q ∈ reachable d settings content document t ↔ ∃ m ≤ settings.maxIncludeDepth,
      Chain (linksOf d settings content document t)
        (fun x => (x, 0) ∉ listing d settings content document (Directive.findAll t))
        (root document) m q) := by
  refine ⟨reachableFrom_eq.symm, fun h => ?_, fun ⟨_, _, h⟩ => mem_reachable_of_chain hq h⟩
  have hpos : 1 ≤ n := by
    cases hjoined with
    | start => exact absurd rfl hq
    | step _ _ _ => omega
  obtain ⟨j, hj⟩ := mem_reachable.mp h
  refine ⟨_, by omega, (chain_of_mem_listing hj).mono ?_⟩
  rintro x ⟨i, hi⟩ h0
  exact absurd (level_unique hi h0) (by omega)

/-- Three files beside a document: `a` includes `b`, and `b` includes `c`. -/
def shortcutDisk : Disk :=
  ((Disk.empty.write (.ofString "/a.au3") ⟨File.encode "#include \"b.au3\"".toList, 0⟩).write
    (.ofString "/b.au3") ⟨File.encode "#include \"c.au3\"".toList, 0⟩).write
    (.ofString "/c.au3") ⟨[], 0⟩

/-- A document that includes `a`, and `b` a second time by itself. -/
def shortcutText : Text :=
  "#include \"a.au3\"\n#include \"b.au3\"".toList

/-- Settings under which files are followed one level deep. -/
def shortcutSettings : Settings :=
  { Settings.standard with maxIncludeDepth := 2 }

lemma shortcut_joined : Joined shortcutDisk shortcutSettings shortcutDisk.text?
    (.ofString "/main.au3") shortcutText 2 (.ofString "/c.au3") := by
  have hb : Path.ofString "/b.au3" ∈ linksOf shortcutDisk shortcutSettings shortcutDisk.text?
      (.ofString "/main.au3") shortcutText (root (.ofString "/main.au3")) := by decide
  have hc : Path.ofString "/c.au3" ∈ linksOf shortcutDisk shortcutSettings shortcutDisk.text?
      (.ofString "/main.au3") shortcutText (.ofString "/b.au3") := by decide
  exact .step (.step .start (Or.inl rfl) hb) (Or.inr trivial) hc

/-- **A file within the limit that is lost**: two directives lead from the document to `c`, and two
levels are allowed, but `b` is first met at the limit, through `a`, and is not followed when the
document names it itself. -/
theorem shortcut_lost : ∃ n ≤ shortcutSettings.maxIncludeDepth,
    Joined shortcutDisk shortcutSettings shortcutDisk.text? (.ofString "/main.au3") shortcutText n
      (.ofString "/c.au3") ∧
    Path.ofString "/c.au3" ≠ root (.ofString "/main.au3") ∧
    Path.ofString "/c.au3" ∉ reachable shortcutDisk shortcutSettings shortcutDisk.text?
      (.ofString "/main.au3") shortcutText :=
  ⟨2, by decide, shortcut_joined, by decide, by decide⟩

/-- On every chain to the lost file within the limit, some file was first met at the limit. -/
theorem shortcut_blocked : ¬ ∃ m ≤ shortcutSettings.maxIncludeDepth,
    Chain (linksOf shortcutDisk shortcutSettings shortcutDisk.text? (.ofString "/main.au3")
        shortcutText)
      (fun x => (x, 0) ∉ listing shortcutDisk shortcutSettings shortcutDisk.text?
        (.ofString "/main.au3") (Directive.findAll shortcutText))
      (root (.ofString "/main.au3")) m (.ofString "/c.au3") := by
  have h := (mem_reachable_iff_chain shortcutDisk shortcutSettings shortcutDisk.text?
    (.ofString "/main.au3") shortcutText (n := 2) (by decide) (by decide) shortcut_joined).2
  exact fun hchain => absurd (h.mpr hchain) (by decide)

end Include

end AutoItServer
