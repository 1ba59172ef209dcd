import AutoItServer.Proofs.Path.Place

/-!
What a change of the disk leaves alone.

* `placeFor?_of_locate?`: a path leads to the place that it names, or nowhere.
* `file?_eq_some_iff_locate?`: the file at a path is the one that stands where the path leads.
* `file?_atPlace_iff`: a file is found at a place when it stands there and all places above are
  directories.
* `node?_write_iff`, `node?_delete`: a write or a deletion touches no file of another place.
* `file?_write_of_isFile`: overwriting a file changes what is found by the paths that lead to it,
  and nothing else.
* `file?_delete_of_isFile`: nothing is found by the paths that led to a file that was deleted, and
  all other paths lead to the same files as before.
-/

namespace AutoItServer

namespace Disk

open AutoItServer.Path (atPlace IsPart placeStep component?)

variable {d d' : Disk} {p q : Path} {ns place : List Text} {f : File}

/-! ### Where paths start -/

lemma startOf?_of_isAbsolute (d : Disk) (hp : p.isAbsolute) : d.startOf? p = some [] := by
  rw [startOf?, if_pos hp]

/-- **The place of an absolute path** is the same on all disks. -/
lemma placeFor?_of_isAbsolute (d : Disk) (hp : p.isAbsolute) :
    d.placeFor? p = some (placeOf p) := by
  rw [placeFor?, startOf?_of_isAbsolute d hp]
  rfl

/-- The empty path starts nowhere. -/
lemma components_ne_nil_of_startOf? (h : d.startOf? p = some place) : p.components ≠ [] := by
  intro hnil
  rw [Path.components_eq_nil] at hnil
  simp [startOf?, Path.isAbsolute, hnil] at h

/-- The empty path leads nowhere. -/
lemma components_ne_nil_of_locate? (h : d.locate? p = some place) : p.components ≠ [] := by
  obtain ⟨start, hstart, -⟩ := Option.bind_eq_some_iff.mp h
  exact components_ne_nil_of_startOf? hstart

/-- Where a path starts is seen at its components: whether there is a root, and whether there is
any. -/
lemma startOf?_congr (hroot : .root ∈ p.components ↔ .root ∈ q.components)
    (hnil : p.components = [] ↔ q.components = []) : d.startOf? p = d.startOf? q := by
  rw [← Path.isAbsolute_iff_root_mem, ← Path.isAbsolute_iff_root_mem] at hroot
  rw [Path.components_eq_nil, Path.components_eq_nil] at hnil
  simp only [startOf?, Bool.eq_iff_iff.mpr hroot, List.isEmpty_iff, hnil]

/-- The place that a path names is seen at its components. -/
lemma placeFor?_congr (h : p.components = q.components) : d.placeFor? p = d.placeFor? q := by
  have hstart : d.startOf? p = d.startOf? q := startOf?_congr (by rw [h]) (by rw [h])
  simp only [placeFor?, placeFrom, hstart, h]

/-- A path that goes on from another one starts where that one starts. -/
lemma startOf?_of_append (hp : p.components ≠ [])
    (h : q.components = p.components ++ ns.map .name) :
    d.startOf? q = d.startOf? p := by
  refine startOf?_congr ?_ ?_
  · simp [h]
  · simp [h, hp]

/-- A path that goes on from another one names a place below. -/
lemma placeFor?_of_append (hp : d.placeFor? p = some place)
    (h : q.components = p.components ++ ns.map .name) : d.placeFor? q = some (place ++ ns) := by
  obtain ⟨start, hstart, rfl⟩ := Option.map_eq_some_iff.mp hp
  have hfrom : placeFrom start q = placeFrom start p ++ ns := by
    rw [Path.placeFrom_eq_steps, Path.placeFrom_eq_steps, Path.steps_of_append h, List.foldl_append,
      Path.foldl_placeStep_name]
  rw [placeFor?, startOf?_of_append (components_ne_nil_of_startOf? hstart) h, hstart,
    Option.map_some, hfrom]

/-- The place that a path names depends on the working directory only. -/
lemma placeFor?_of_workingDirectory (h : d'.workingDirectory = d.workingDirectory) (p : Path) :
    d'.placeFor? p = d.placeFor? p := by
  rw [placeFor?, placeFor?, startOf?, startOf?, h]

@[simp] lemma workingDirectory_set (d : Disk) (place : List Text) (n : Node) :
    (d.set place n).workingDirectory = d.workingDirectory := rfl

@[simp] lemma workingDirectory_makeDirectories (d : Disk) (place parts : List Text) :
    (makeDirectories d place parts).workingDirectory = d.workingDirectory := by
  induction parts generalizing d place with
  | nil => rfl
  | cons part parts ih =>
    rw [makeDirectories, ih]
    split_ifs
    · rfl
    · rfl

/-- **Nothing that is written or deleted** moves the working directory. -/
@[simp] lemma workingDirectory_write (d : Disk) (p : Path) (f : File) :
    (d.write p f).workingDirectory = d.workingDirectory := by
  rw [write]
  split
  · rw [workingDirectory_set, workingDirectory_makeDirectories]
  · rfl

@[simp] lemma workingDirectory_delete (d : Disk) (p : Path) :
    (d.delete p).workingDirectory = d.workingDirectory := by
  rw [delete]
  split
  · split_ifs
    · rfl
    · rfl
  · rfl

/-! ### Places -/

/-- What stands at a place other than the root. -/
lemma node?_of_ne_nil (d : Disk) {place : List Text} (h : place ≠ []) :
    d.node? place = (d.nodes.find? fun n => n.1 == place).map Prod.snd := by
  rw [node?, if_neg (by simpa using h)]

/-- The first node of a place, when the nodes of another place are taken out. -/
lemma find?_filter_ne {place q : List Text} (h : q ≠ place) (nodes : List (List Text × Node)) :
    (nodes.filter fun e => !(e.1 == place)).find? (fun e => e.1 == q) =
      nodes.find? fun e => e.1 == q := by
  rw [List.find?_filter]
  congr 1
  funext e
  by_cases he : e.1 = q
  · simp [he, h]
  · simp [he]

/-- The root is a directory, and a place holds what was put there last. -/
lemma node?_set (d : Disk) (place q : List Text) (n : Node) :
    (d.set place n).node? q =
      if q = [] then some .directory else if q = place then some n else d.node? q := by
  by_cases hq : q = []
  · simp [node?, hq]
  · rw [if_neg hq, node?_of_ne_nil _ hq, set, List.find?_append]
    by_cases hp : q = place
    · subst hp
      have hnone : (d.nodes.filter fun e => !(e.1 == q)).find? (fun e => e.1 == q) = none := by
        simp
      simp [hnone]
    · rw [find?_filter_ne hp, if_neg hp, node?_of_ne_nil d hq]
      simp [Ne.symm hp]

/-- A directory is not a file. -/
lemma isDirectoryAt_iff {place : List Text} :
    d.isDirectoryAt place ↔ d.node? place = some .directory := by
  simp [isDirectoryAt]

/-- A path leads to its place or nowhere, part by part. -/
lemma eq_of_locateFrom? {place r : List Text} {parts : List Text}
    (h : d.locateFrom? place parts = some r) :
    r = (parts.filterMap (component? false)).foldl placeStep place := by
  induction parts generalizing place with
  | nil => exact (Option.some.inj h).symm
  | cons part parts ih =>
    rw [locateFrom?] at h
    split_ifs at h with hdir hdot hdots hnode
    · have hnone : component? false part = none := by
        rcases hdot with rfl | rfl <;> rfl
      rw [List.filterMap_cons_none hnone]
      exact ih h
    · subst hdots
      exact ih h
    · rw [not_or] at hdot
      have hname : component? false part = some (.name part) := by
        simp [component?, hdot, hdots]
      rw [List.filterMap_cons_some hname]
      exact ih h

/-- **A path leads to the place that it names**, or nowhere. -/
lemma placeFor?_of_locate? (h : d.locate? p = some place) : d.placeFor? p = some place := by
  obtain ⟨start, hstart, h⟩ := Option.bind_eq_some_iff.mp h
  rw [placeFor?, hstart, Option.map_some, Path.placeFrom_eq_steps, eq_of_locateFrom? h]
  rfl

/-- **The file at a path** is the one that stands where the path leads. -/
lemma file?_eq_some_iff_locate? :
    d.file? p = some f ↔ ∃ place, d.locate? p = some place ∧ d.node? place = some (.file f) := by
  rw [← Option.bind_eq_some_iff, file?]
  split
  · rename_i g hg
    rw [hg, Option.some.injEq, Option.some.injEq, Node.file.injEq]
  · rename_i hne
    exact ⟨fun h => (by cases h), fun h => absurd h (hne f)⟩

/-- A file that is found stands at the place that its path names. -/
lemma node?_of_file? (h : d.file? p = some f) (hplace : d.placeFor? p = some place) :
    d.node? place = some (.file f) := by
  obtain ⟨r, hr, hnode⟩ := file?_eq_some_iff_locate?.mp h
  rwa [← Option.some.inj ((placeFor?_of_locate? hr).symm.trans hplace)]

/-- The places on the way are directories and a file stands at the end. -/
lemma locateFrom?_file_iff (hns : ∀ n ∈ ns, IsPart n) (place : List Text) (f : File) :
    (d.locateFrom? place ns).bind d.node? = some (.file f) ↔
      (∀ k < ns.length, d.isDirectoryAt (place ++ ns.take k)) ∧
        d.node? (place ++ ns) = some (.file f) := by
  induction ns generalizing place with
  | nil => simp [locateFrom?]
  | cons n ns ih =>
    obtain ⟨h0, -, h1, h2⟩ := hns n List.mem_cons_self
    have ih := ih (fun m hm => hns m (List.mem_cons_of_mem _ hm)) (place ++ [n])
    rw [locateFrom?]
    by_cases hdir : d.isDirectoryAt place
    · rw [if_neg (by simp [hdir]), if_neg (by simp [h0, h1]), if_neg h2]
      have hshift : (∀ k < (n :: ns).length, d.isDirectoryAt (place ++ (n :: ns).take k)) ↔
          ∀ k < ns.length, d.isDirectoryAt (place ++ [n] ++ ns.take k) := by
        constructor
        · intro h k hk
          simpa using h (k + 1) (by simpa using hk)
        · intro h k hk
          cases k with
          | zero => simpa using hdir
          | succ k => simpa using h k (by simpa using hk)
      rw [hshift, List.append_cons place n ns]
      split_ifs with hnode
      · exact ih
      · refine ⟨fun h => absurd h (by simp), fun h => absurd hnode ?_⟩
        rw [not_not]
        cases ns with
        | nil => rw [List.append_nil] at h; simp [h.2]
        | cons m ms =>
          have := isDirectoryAt_iff.mp (h.1 0 (by simp))
          simp_all
    · rw [if_pos (by simp [hdir])]
      refine ⟨fun h => absurd h (by simp), fun h => absurd (h.1 0 (by simp)) ?_⟩
      simpa using hdir

/-- **What is found at a place**: the file that stands there, if all places above are
directories. -/
lemma file?_atPlace_iff (hns : ∀ n ∈ ns, IsPart n) :
    d.file? (atPlace ns) = some f ↔
      (∀ k < ns.length, d.isDirectoryAt (ns.take k)) ∧ d.node? ns = some (.file f) := by
  have hlocate : d.locate? (atPlace ns) = d.locateFrom? [] ns := by
    rw [locate?, startOf?_of_isAbsolute d (Path.isAbsolute_atPlace ns), Option.bind_some,
      Path.atPlace_text, Text.splitOnChar, if_pos rfl, locateFrom?]
    have hroot : d.isDirectoryAt [] := by simp [isDirectoryAt, node?]
    rw [if_neg (by simp [hroot]), if_pos (Or.inl rfl)]
    cases ns with
    | nil => simp [Text.join, Text.splitOnChar, locateFrom?, hroot]
    | cons n ns => rw [Text.splitOnChar_join (by simp) fun t ht => (hns t ht).2.1]
  have h := locateFrom?_file_iff (d := d) hns [] f
  simp only [List.nil_append] at h
  rw [← h, file?_eq_some_iff_locate?, hlocate, Option.bind_eq_some_iff]

/-- **A walk over the disk** depends on where there are directories and where there is anything. -/
lemma locate?_congr (hdirectory : d'.workingDirectory = d.workingDirectory)
    (hdir : ∀ q, d'.isDirectoryAt q = d.isDirectoryAt q)
    (hsome : ∀ q, (d'.node? q).isSome = (d.node? q).isSome) (p : Path) :
    d'.locate? p = d.locate? p := by
  have hfrom : ∀ place parts, d'.locateFrom? place parts = d.locateFrom? place parts := by
    intro place parts
    induction parts generalizing place with
    | nil => rfl
    | cons part parts ih => simp only [locateFrom?, hdir, hsome, ih]
  simp only [locate?, startOf?, hdirectory, hfrom]

/-! ### Writing -/

/-- Making directories makes no file and removes none. -/
lemma node?_makeDirectories_file_iff {place parts q : List Text} {f : File} :
    (makeDirectories d place parts).node? q = some (.file f) ↔ d.node? q = some (.file f) := by
  induction parts generalizing d place with
  | nil => rfl
  | cons part parts ih =>
    rw [makeDirectories]
    refine ih.trans ?_
    split_ifs with hnode
    · rfl
    · rw [node?_set]
      split_ifs with h0 h1
      · simp [h0, node?]
      · simp only [Option.not_isSome_iff_eq_none] at hnode
        simp [h1, hnode]
      · rfl

/-- Where all directories are there, none is made. -/
lemma makeDirectories_eq_self {place parts : List Text}
    (h : ∀ k < parts.length, (d.node? (place ++ parts.take (k + 1))).isSome) :
    makeDirectories d place parts = d := by
  induction parts generalizing place with
  | nil => rfl
  | cons part parts ih =>
    have hfirst : (d.node? (place ++ [part])).isSome := by simpa using h 0 (by simp)
    rw [makeDirectories, if_pos hfirst]
    refine ih fun k hk => ?_
    simpa using h (k + 1) (by simpa using hk)

/-- A file is written at the place that its path names. -/
lemma write_of_placeFor? (h : d.placeFor? p = some place) (f : File) :
    d.write p f = (makeDirectories d [] place.dropLast).set place (.file f) := by
  rw [write, h]

/-- A write touches no file of another place. -/
lemma node?_write_iff {r : List Text} (hr : d.placeFor? p ≠ some r) {f g : File} :
    (d.write p f).node? r = some (.file g) ↔ d.node? r = some (.file g) := by
  cases hplace : d.placeFor? p with
  | none => rw [write, hplace]
  | some place =>
    have hne : r ≠ place := fun h => hr (h ▸ hplace)
    rw [write_of_placeFor? hplace, node?_set, if_neg hne]
    split_ifs with h0
    · simp [h0, node?]
    · exact node?_makeDirectories_file_iff

/-- Overwriting a file only puts the new one in its place. -/
lemma write_of_isFile (hp : p.isAbsolute) (hfile : d.isFile (atPlace (placeOf p))) (f : File) :
    d.write p f = d.set (placeOf p) (.file f) := by
  obtain ⟨g, hg⟩ := Option.isSome_iff_exists.mp hfile
  have hdirs := ((file?_atPlace_iff (Path.isPart_of_mem_placeOf p)).mp hg).1
  rw [write_of_placeFor? (placeFor?_of_isAbsolute d hp), makeDirectories_eq_self]
  intro k hk
  rw [List.length_dropLast] at hk
  have hdir := isDirectoryAt_iff.mp (hdirs (k + 1) (by omega))
  rw [List.nil_append, List.dropLast_eq_take, List.take_take, Nat.min_eq_left (by omega), hdir]
  rfl

/-- **Overwriting a file** changes what is found by the paths that lead to it, and nothing else. -/
lemma file?_write_of_isFile (hp : p.isAbsolute) (hfile : d.isFile (atPlace (placeOf p))) (f : File)
    (q : Path) :
    (d.write p f).file? q = if d.locate? q = some (placeOf p) then some f else d.file? q := by
  obtain ⟨g, hg⟩ := Option.isSome_iff_exists.mp hfile
  have hnode := ((file?_atPlace_iff (Path.isPart_of_mem_placeOf p)).mp hg).2
  have hne : placeOf p ≠ [] := fun h => by simp [h, node?] at hnode
  have hset : ∀ r, (d.write p f).node? r = if r = placeOf p then some (.file f) else d.node? r := by
    intro r
    rw [write_of_isFile hp hfile, node?_set]
    split_ifs with h0 h1
    · exact absurd (h1.symm.trans h0) hne
    · simp [h0, node?]
    · rfl
    · rfl
  -- a file takes the place of a file, so the paths lead where they led
  have hlocate : (d.write p f).locate? q = d.locate? q := by
    refine locate?_congr (workingDirectory_write d p f) (fun r => ?_) (fun r => ?_) q
    · rw [isDirectoryAt, isDirectoryAt, hset]
      split_ifs with h
      · rw [h, hnode]
        rfl
      · rfl
    · rw [hset]
      split_ifs with h
      · rw [h, hnode]
        rfl
      · rfl
  ext h
  rw [file?_eq_some_iff_locate?, hlocate]
  split_ifs with hq
  · simp [hq, hset]
  · rw [file?_eq_some_iff_locate?]
    refine exists_congr fun r => and_congr_right fun hr => ?_
    rw [hset, if_neg fun h => hq (hr.trans (congrArg some h))]

/-! ### Deleting -/

/-- Where no file is found, none is deleted. -/
lemma delete_of_not_isFile (hp : ¬ d.isFile p) : d.delete p = d := by
  rw [delete]
  split
  · rw [if_neg hp]
  · rfl

/-- Deleting a file empties its place. -/
lemma node?_delete_of_isFile (hp : d.isFile p) (hplace : d.placeFor? p = some place)
    (r : List Text) : (d.delete p).node? r = if r = place then none else d.node? r := by
  obtain ⟨f, hf⟩ := Option.isSome_iff_exists.mp hp
  obtain ⟨place', hlocate, hnode⟩ := file?_eq_some_iff_locate?.mp hf
  obtain rfl := Option.some.inj (hplace.symm.trans (placeFor?_of_locate? hlocate))
  have hne : place ≠ [] := fun h => by simp [h, node?] at hnode
  rw [delete, hlocate]
  simp only [if_pos hp]
  by_cases hr : r = place
  · rw [if_pos hr, hr, node?_of_ne_nil _ hne]
    simp
  · rw [if_neg hr]
    by_cases h0 : r = []
    · simp [h0, node?]
    · rw [node?_of_ne_nil _ h0, node?_of_ne_nil _ h0, find?_filter_ne hr]

/-- A deletion makes no file. -/
lemma node?_delete {r : List Text} (h : (d.delete p).node? r = some (.file f)) :
    d.node? r = some (.file f) := by
  by_cases hp : d.isFile p
  · obtain ⟨g, hg⟩ := Option.isSome_iff_exists.mp hp
    obtain ⟨place, hplace, -⟩ := file?_eq_some_iff_locate?.mp hg
    rw [node?_delete_of_isFile hp (placeFor?_of_locate? hplace)] at h
    split_ifs at h
    exact h
  · rwa [delete_of_not_isFile hp] at h

/-- Where a file is gone, paths lead to the same things as before, the file apart. -/
lemma bind_locateFrom?_of_gone {g : File}
    (hgone : ∀ r, d'.node? r = if r = ns then none else d.node? r)
    (hnode : d.node? ns = some (.file g)) (place parts : List Text) :
    (d'.locateFrom? place parts).bind d'.node? = (d.locateFrom? place parts).bind d'.node? := by
  have hdir : ∀ r, d'.isDirectoryAt r = d.isDirectoryAt r := by
    intro r
    rw [isDirectoryAt, isDirectoryAt, hgone]
    split_ifs with h
    · rw [h, hnode]
      rfl
    · rfl
  induction parts generalizing place with
  | nil => rfl
  | cons part parts ih =>
    rw [locateFrom?, locateFrom?, hdir, hgone]
    by_cases hns : place ++ [part] = ns
    · -- the way ends at the file
      have hend : (d.locateFrom? ns parts).bind d'.node? = none := by
        cases parts with
        | nil => rw [locateFrom?, Option.bind_some, hgone, if_pos rfl]
        | cons next parts => rw [locateFrom?, isDirectoryAt, hnode]; rfl
      rw [if_pos hns, hns, hnode]
      simp only [Option.isSome_none, Option.isSome_some, Bool.false_eq_true, if_false, if_true]
      split_ifs
      · rfl
      · exact ih place
      · exact ih _
      · exact hend.symm
    · rw [if_neg hns]
      split_ifs
      · rfl
      · exact ih place
      · exact ih _
      · exact ih _
      · rfl

/-- **Deleting a file**: nothing is found by the paths that led to it, and the other paths lead to
the same files as before. -/
lemma file?_delete_of_isFile (hp : d.isFile p) (q : Path) :
    (d.delete p).file? q = if d.locate? q = d.locate? p then none else d.file? q := by
  obtain ⟨f, hf⟩ := Option.isSome_iff_exists.mp hp
  obtain ⟨place, hplace, hnode⟩ := file?_eq_some_iff_locate?.mp hf
  have hgone := node?_delete_of_isFile hp (placeFor?_of_locate? hplace)
  have hlocate : ((d.delete p).locate? q).bind (d.delete p).node? =
      (d.locate? q).bind (d.delete p).node? := by
    rw [locate?, locate?, startOf?, workingDirectory_delete, ← startOf?]
    cases d.startOf? q with
    | none => rfl
    | some start => exact bind_locateFrom?_of_gone hgone hnode start _
  ext h
  rw [file?_eq_some_iff_locate?, ← Option.bind_eq_some_iff, hlocate, hplace]
  split_ifs with hq
  · rw [hq, Option.bind_some, hgone, if_pos rfl]
    simp
  · rw [file?_eq_some_iff_locate?, Option.bind_eq_some_iff]
    refine exists_congr fun r => and_congr_right fun hr => ?_
    rw [hgone, if_neg fun h => hq (hr.trans (congrArg some h))]

end Disk

end AutoItServer
