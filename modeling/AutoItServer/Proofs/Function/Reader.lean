import AutoItServer.Function.Definition
import AutoItServer.Proofs.Source.Hidden
import Mathlib.Data.List.Chain
import Mathlib.Data.List.Induction

/-!
The search for definitions as a machine that reads one line after another.

Between two lines the search knows the number of open blocks and whether it is inside a parameter
list. It looks for headers only outside of lists, and inside a list it does not count block markers.

* `FunctionDef.State`, `State.next`, `State.out`: the state, the state after a line, and the
  definition that is complete with the line. `find_append` cuts a search in two.
* `holds_or_meets_of_mem` and `exists_mem_of_meets` (**found headers**): the definitions come from
  the headers that the search looks at, and each of these gives one.
* `holds_run`: the lines of a list are all continued, from the header on.
* `nesting_run_le`: the search never counts more open blocks than there are.
* `FunctionDef.Orderly`, `settled_run`: where no continued line is followed by a block marker, the
  search counts exactly the open blocks, and inside a block it is outside of every list.
* `find_pass`, `find_drop`: lines that are passed over can be left out, hidden lines among them.
* `find_relocated`, `find_moved`: the search does not look at the places of lines.
-/

namespace AutoItServer

namespace FunctionDef

open AutoItServer.Source (depthAfter depthOver hides isMarker)

/-! ### The machine -/

/-- The header of a definition: its name, and the index and offset of its line. -/
def heading (d : FunctionDef) : Text × Nat × Nat :=
  (d.name, d.line, d.offset)

/-- What the search knows between two lines: the number of open blocks, and what its reader is
doing. -/
structure State where
  nesting : Nat
  reader : Reader

/-- No line that is continued stands directly before a block marker. -/
def Orderly (ls : List Line) : Prop :=
  ls.IsChain fun l m => Source.continues l.text → isMarker m.text = false

instance (ls : List Line) : Decidable (Orderly ls) :=
  inferInstanceAs (Decidable (ls.IsChain fun l m => Source.continues l.text →
    isMarker m.text = false))

namespace State

/-- Before the first line. -/
def start : State :=
  ⟨0, .looking⟩

/-- The definition that a line begins or goes on with, and what the reader does after the line. -/
def read (s : State) (l : Line) : Option (FunctionDef × Reader) :=
  match s.reader with
  | .reading found depth =>
    let p := piece none depth (Text.trimStart l.text)
    let found := { found with params := joinable found.params ++ p.text }
    some (found, afterPiece found l.text p)
  | .looking =>
    if hides s.nesting l.text then none
    else (head? l.text).map fun (name, rest) =>
      let p := piece none 0 rest
      let found : FunctionDef := ⟨name, p.text, l.index, l.offset⟩
      (found, afterPiece found l.text p)

/-- The number of open blocks after a line. The lines of a list are not looked at. -/
def nestingAfter (s : State) (l : Line) : Nat :=
  match s.reader with
  | .reading _ _ => s.nesting
  | .looking => depthAfter s.nesting l.text

/-- The state after a line. -/
def next (s : State) (l : Line) : State :=
  ⟨s.nestingAfter l, match s.read l with
    | none => .looking
    | some (_, reader) => reader⟩

/-- The definition that is complete with a line. -/
def out (s : State) (l : Line) : List FunctionDef :=
  match s.read l with
  | some (found, .looking) => [found.finish]
  | _ => []

/-- The state after some lines. -/
def run (s : State) (ls : List Line) : State :=
  ls.foldl next s

/-- The definitions that are complete with some lines. -/
def outs (s : State) : List Line → List FunctionDef
  | [] => []
  | l :: ls => s.out l ++ (s.next l).outs ls

/-- The definitions in lines, from a state on. -/
def find (s : State) (ls : List Line) : List FunctionDef :=
  findFrom s.nesting s.reader ls

variable {s : State} {l : Line} {ls ms : List Line} {d found : FunctionDef} {depth : Nat}

@[simp] lemma run_nil : s.run [] = s := rfl

@[simp] lemma run_cons : s.run (l :: ls) = (s.next l).run ls := rfl

lemma run_append : s.run (ls ++ ms) = (s.run ls).run ms :=
  List.foldl_append

/-- **One line of the search.** -/
lemma find_cons : s.find (l :: ls) = s.out l ++ (s.next l).find ls := by
  obtain ⟨nesting, reader⟩ := s
  simp only [find, out, next, nestingAfter, read]
  cases reader with
  | reading found depth =>
    rw [findFrom]
    dsimp only
    generalize afterPiece _ _ _ = reader
    cases reader <;> rfl
  | looking =>
    rw [findFrom]
    dsimp only
    by_cases hhides : hides nesting l.text
    · simp [hhides]
    · rw [if_neg hhides, if_neg hhides]
      rcases head? l.text with - | ⟨name, rest⟩
      · rfl
      · dsimp only [Option.map_some]
        generalize afterPiece _ _ _ = reader
        cases reader <;> rfl

/-- **A search in two parts.** -/
lemma find_append (s : State) (ls ms : List Line) :
    s.find (ls ++ ms) = s.outs ls ++ (s.run ls).find ms := by
  induction ls generalizing s with
  | nil => rfl
  | cons l ls ih => rw [List.cons_append, find_cons, ih, outs, List.append_assoc, run_cons]

/-! ### What one line does -/

/-- The search looks at a line, outside of lists and of the blocks it counts, and sees a header. -/
def LooksAt (s : State) (l : Line) (name : Text) : Prop :=
  s.reader = .looking ∧ hides s.nesting l.text = false ∧ ∃ rest, head? l.text = some (name, rest)

/-- The search is inside the list of a definition. -/
def Holds (s : State) (d : FunctionDef) : Prop :=
  ∃ found depth, s.reader = .reading found depth ∧ found.heading = d.heading

lemma not_holds_of_looking (h : s.reader = .looking) : ¬ s.Holds d := by
  rintro ⟨found, depth, hreader, -⟩
  rw [h] at hreader
  cases hreader

/-- The search is inside one list at a time. -/
lemma Holds.heading_eq (h : s.Holds d) (h' : s.Holds found) : d.heading = found.heading := by
  obtain ⟨held, depth, hreader, hheld⟩ := h
  obtain ⟨held', depth', hreader', hheld'⟩ := h'
  rw [hreader] at hreader'
  cases hreader'
  exact hheld.symm.trans hheld'

lemma Holds.congr (h : s.Holds d) (hd : d.heading = found.heading) : s.Holds found := by
  obtain ⟨held, depth, hreader, hheld⟩ := h
  exact ⟨held, depth, hreader, hheld.trans hd⟩

/-- After a line has been read into a definition, its list goes on or the definition is complete. -/
lemma next_of_read {p : Piece} {text : Text}
    (h : s.read l = some (found, afterPiece found text p)) :
    (s.next l).reader = .looking ∧ s.out l = [found.finish] ∨
      (s.next l).reader = .reading found p.depth ∧ s.out l = [] ∧ Source.continues text := by
  simp only [next, out, h]
  rw [afterPiece]
  split_ifs with hgoes
  · exact Or.inr ⟨rfl, rfl, (Bool.and_eq_true_iff.mp hgoes).2⟩
  · exact Or.inl ⟨rfl, rfl⟩

/-- **What one line does.** It is of no concern to the search outside of lists; or it belongs to a
definition, which starts there or has been started, and which is complete with it or goes on. -/
lemma step_cases (s : State) (l : Line) :
    (s.reader = .looking ∧ (∀ name, ¬ s.LooksAt l name) ∧ (s.next l).reader = .looking ∧
      s.out l = []) ∨
    ∃ d, (s.LooksAt l d.name ∧ d.heading = (d.name, l.index, l.offset) ∨ s.Holds d) ∧
      ((s.next l).reader = .looking ∧ s.out l = [d.finish] ∨
        (s.next l).Holds d ∧ s.out l = [] ∧ Source.continues l.text) := by
  cases hreader : s.reader with
  | reading found depth =>
    let p := piece none depth (Text.trimStart l.text)
    let d : FunctionDef := { found with params := joinable found.params ++ p.text }
    have hread : s.read l = some (d, afterPiece d l.text p) := by
      rw [read, hreader]
    refine Or.inr ⟨d, Or.inr ⟨found, depth, hreader, rfl⟩, ?_⟩
    rcases next_of_read hread with hdone | ⟨hnext, hout⟩
    · exact Or.inl hdone
    · exact Or.inr ⟨⟨d, p.depth, hnext, rfl⟩, hout⟩
  | looking =>
    -- a line that is hidden, or that has no header, is passed over
    have hpass (hread : s.read l = none) : (s.next l).reader = .looking ∧ s.out l = [] := by
      simp [next, out, hread]
    by_cases hhides : hides s.nesting l.text
    · refine Or.inl ⟨rfl, fun name hname => ?_, hpass ?_⟩
      · exact absurd hhides (by rw [hname.2.1]; decide)
      · rw [read, hreader]
        exact if_pos hhides
    · rcases hhead : head? l.text with - | ⟨name, rest⟩
      · refine Or.inl ⟨rfl, fun name hname => ?_, hpass ?_⟩
        · obtain ⟨-, -, rest, hrest⟩ := hname
          rw [hhead] at hrest
          cases hrest
        · simp [read, hreader, hhead]
      · let p := piece none 0 rest
        let d : FunctionDef := ⟨name, p.text, l.index, l.offset⟩
        have hread : s.read l = some (d, afterPiece d l.text p) := by
          simp [read, hreader, hhides, hhead, d, p]
        rw [Bool.not_eq_true] at hhides
        refine Or.inr ⟨d, Or.inl ⟨⟨hreader, hhides, rest, hhead⟩, rfl⟩, ?_⟩
        rcases next_of_read hread with hdone | ⟨hnext, hout⟩
        · exact Or.inl hdone
        · exact Or.inr ⟨⟨d, p.depth, hnext, rfl⟩, hout⟩

/-! ### Headers that are found -/

/-- A header that the search looks at among some lines, with its name and its place. -/
def Meets (s : State) (ls : List Line) (d : FunctionDef) : Prop :=
  ∃ above l below, ls = above ++ l :: below ∧ (s.run above).LooksAt l d.name ∧
    d.heading = (d.name, l.index, l.offset)

lemma Meets.cons (h : (s.next l).Meets ls d) : s.Meets (l :: ls) d := by
  obtain ⟨above, m, below, rfl, hm⟩ := h
  exact ⟨l :: above, m, below, rfl, hm⟩

/-- **Every definition found** comes from a header that the search looks at. -/
lemma holds_or_meets_of_mem (h : d ∈ s.find ls) : s.Holds d ∨ s.Meets ls d := by
  induction ls generalizing s with
  | nil =>
    obtain ⟨nesting, reader⟩ := s
    cases reader with
    | looking => cases h
    | reading found depth =>
      obtain rfl := List.mem_singleton.mp h
      exact Or.inl ⟨found, depth, rfl, rfl⟩
  | cons l ls ih =>
    rw [find_cons, List.mem_append] at h
    -- a definition of the rest that is held after the line has been met in it, or is held before it
    have hrest (hheld : (s.next l).Holds d → s.Holds d ∨ s.Meets (l :: ls) d)
        (h : d ∈ (s.next l).find ls) : s.Holds d ∨ s.Meets (l :: ls) d :=
      (ih h).elim hheld fun hmeets => Or.inr hmeets.cons
    rcases step_cases s l with ⟨-, -, hnext, hout⟩ | ⟨d', hfrom, hto⟩
    · rw [hout] at h
      exact hrest (fun hd => absurd hd (not_holds_of_looking hnext))
        (h.resolve_left List.not_mem_nil)
    · have hheading (hd : d.heading = d'.heading) : s.Holds d ∨ s.Meets (l :: ls) d := by
        have hname : d.name = d'.name := congrArg Prod.fst hd
        rcases hfrom with ⟨hlooks, hplace⟩ | hheld
        · exact Or.inr ⟨[], l, ls, rfl, hname ▸ hlooks, by rw [hd, hplace, hname]⟩
        · exact Or.inl (hheld.congr hd.symm)
      rcases hto with ⟨hnext, hout⟩ | ⟨hheld, hout, -⟩
      · rw [hout, List.mem_singleton] at h
        rcases h with rfl | h
        · exact hheading rfl
        · exact hrest (fun hd => absurd hd (not_holds_of_looking hnext)) h
      · rw [hout] at h
        exact hrest (fun hd => hheading (hd.heading_eq hheld)) (h.resolve_left List.not_mem_nil)

/-- A definition that is held is found in the end. -/
lemma exists_mem_of_holds (h : s.Holds d) : ∃ d' ∈ s.find ls, d'.heading = d.heading := by
  induction ls generalizing s with
  | nil =>
    obtain ⟨found, depth, hreader, hfound⟩ := h
    rw [find, hreader]
    exact ⟨found.finish, List.mem_singleton_self _, hfound⟩
  | cons l ls ih =>
    rw [find_cons]
    rcases step_cases s l with ⟨hlooking, -⟩ | ⟨d', hfrom, hto⟩
    · exact absurd h (not_holds_of_looking hlooking)
    · have hheading : d'.heading = d.heading := by
        rcases hfrom with ⟨⟨hlooking, -⟩, -⟩ | hheld
        · exact absurd h (not_holds_of_looking hlooking)
        · exact hheld.heading_eq h
      rcases hto with ⟨-, hout⟩ | ⟨hnext, -⟩
      · exact ⟨d'.finish, by rw [hout]; exact List.mem_append_left _ (List.mem_singleton_self _),
          hheading⟩
      · obtain ⟨d'', hmem, hd''⟩ := ih (hnext.congr hheading)
        exact ⟨d'', List.mem_append_right _ hmem, hd''⟩

/-- **Every header that the search looks at** is found. -/
lemma exists_mem_of_meets (h : s.Meets ls d) : ∃ d' ∈ s.find ls, d'.heading = d.heading := by
  obtain ⟨above, l, below, rfl, hlooks, hplace⟩ := h
  rw [find_append, find_cons]
  rcases step_cases (s.run above) l with ⟨-, hnone, -⟩ | ⟨d', hfrom, hto⟩
  · exact absurd hlooks (hnone d.name)
  · have hheading : d'.heading = d.heading := by
      rcases hfrom with ⟨⟨-, -, rest, hrest⟩, hplace'⟩ | hheld
      · obtain ⟨-, -, rest', hrest'⟩ := hlooks
        rw [hrest] at hrest'
        have hname : d'.name = d.name := congrArg Prod.fst (Option.some.inj hrest')
        rw [hplace', hplace, hname]
      · exact absurd hheld (not_holds_of_looking hlooks.1)
    rcases hto with ⟨-, hout⟩ | ⟨hnext, hout, -⟩
    · refine ⟨d'.finish, ?_, hheading⟩
      rw [hout]
      exact List.mem_append_right _ (List.mem_append_left _ (List.mem_singleton_self _))
    · obtain ⟨d'', hmem, hd''⟩ := exists_mem_of_holds hnext
      exact ⟨d'', List.mem_append_right _ (List.mem_append_right _ hmem), hd''.trans hheading⟩

/-- **The lines of a list**: the search is inside a list only if all lines from the header on are
continued. -/
lemma holds_run (h : (s.run ls).Holds d) :
    (s.Holds d ∧ ∀ x ∈ ls, Source.continues x.text) ∨
      ∃ above header list, ls = above ++ header :: list ∧ (s.run above).LooksAt header d.name ∧
        d.heading = (d.name, header.index, header.offset) ∧
        ∀ x ∈ header :: list, Source.continues x.text := by
  induction ls generalizing s with
  | nil => exact Or.inl ⟨h, nofun⟩
  | cons l ls ih =>
    rcases ih h with ⟨hheld, hlist⟩ | ⟨above, header, list, rfl, hheader⟩
    · rcases step_cases s l with ⟨-, -, hnext, -⟩ |
        ⟨d', hfrom, ⟨hnext, -⟩ | ⟨hheld', -, hcontinues⟩⟩
      · exact absurd hheld (not_holds_of_looking hnext)
      · exact absurd hheld (not_holds_of_looking hnext)
      · have hheading : d'.heading = d.heading := hheld'.heading_eq hheld
        have hname : d'.name = d.name := congrArg Prod.fst hheading
        have hall : ∀ x ∈ l :: ls, Source.continues x.text :=
          List.forall_mem_cons.mpr ⟨hcontinues, hlist⟩
        rcases hfrom with ⟨hlooks, hplace⟩ | hbefore
        · exact Or.inr ⟨[], l, ls, rfl, hname ▸ hlooks, by rw [← hheading, hplace, hname], hall⟩
        · exact Or.inl ⟨hbefore.congr hheading, hall⟩
    · exact Or.inr ⟨l :: above, header, list, rfl, hheader⟩

/-! ### Open blocks -/

/-- In a list the search has no block open. -/
def Sound (s : State) : Prop :=
  ∀ d, s.Holds d → s.nesting = 0

lemma sound_start : start.Sound := fun _ h => absurd h (not_holds_of_looking rfl)

lemma nesting_next_of_looking (h : s.reader = .looking) :
    (s.next l).nesting = depthAfter s.nesting l.text := by
  rw [next, nestingAfter, h]

lemma nesting_next_of_holds (h : s.Holds d) : (s.next l).nesting = s.nesting := by
  obtain ⟨found, depth, hreader, -⟩ := h
  rw [next, nestingAfter, hreader]

lemma looking_or_holds (s : State) : s.reader = .looking ∨ ∃ d, s.Holds d := by
  cases hreader : s.reader with
  | looking => exact Or.inl rfl
  | reading found depth => exact Or.inr ⟨found, found, depth, hreader, rfl⟩

/-- A list begins or goes on only outside of blocks. -/
lemma Sound.next (h : s.Sound) (l : Line) : (s.next l).Sound := by
  intro d hd
  rcases step_cases s l with ⟨-, -, hnext, -⟩ | ⟨d', ⟨⟨hlooking, hvisible, -⟩, -⟩ | hheld, -⟩
  · exact absurd hd (not_holds_of_looking hnext)
  · rw [nesting_next_of_looking hlooking, (Source.depthAfter_of_not_hides hvisible).2]
  · rw [nesting_next_of_holds hheld, h d' hheld]

lemma Sound.run (h : s.Sound) (ls : List Line) : (s.run ls).Sound := by
  induction ls generalizing s with
  | nil => exact h
  | cons l ls ih => exact ih (h.next l)

/-- **The search counts too few open blocks** at worst: it does not see the markers inside a
list. -/
lemma nesting_run_le (h : s.Sound) {n : Nat} (hn : s.nesting ≤ n) (ls : List Line) :
    (s.run ls).nesting ≤ depthOver n (ls.map Line.text) := by
  induction ls generalizing s n with
  | nil => exact hn
  | cons l ls ih =>
    refine ih (h.next l) ?_
    rcases s.looking_or_holds with hlooking | ⟨d, hd⟩
    · rw [nesting_next_of_looking hlooking, depthAfter, depthAfter]
      split_ifs <;> omega
    · rw [nesting_next_of_holds hd, h d hd]
      exact Nat.zero_le _

/-- **In orderly lines** the search counts exactly the open blocks, and is inside a list only after
a line that is continued. -/
lemma settled_run (h : Orderly ls) :
    (start.run ls).nesting = depthOver 0 (ls.map Line.text) ∧
      ∀ d, (start.run ls).Holds d → ∃ l, ls.getLast? = some l ∧ Source.continues l.text := by
  induction ls using List.reverseRecOn with
  | nil => exact ⟨rfl, fun d hd => absurd hd (not_holds_of_looking rfl)⟩
  | append_singleton ls l ih =>
    obtain ⟨hls, -, hchain⟩ := List.isChain_append.mp h
    obtain ⟨hnesting, hlast⟩ := ih hls
    rw [run_append, run_cons, run_nil, List.map_append, Source.depthOver_append, ← hnesting]
    refine ⟨?_, fun d hd => ⟨l, List.getLast?_concat, ?_⟩⟩
    · rcases (start.run ls).looking_or_holds with hlooking | ⟨d, hd⟩
      · exact nesting_next_of_looking hlooking
      · obtain ⟨m, hm, hcontinues⟩ := hlast d hd
        have hplain : isMarker l.text = false := hchain m hm l rfl hcontinues
        rw [nesting_next_of_holds hd]
        exact (Source.depthAfter_of_plain hplain _).symm
    · rcases step_cases (start.run ls) l with
        ⟨-, -, hnext, -⟩ | ⟨-, -, ⟨hnext, -⟩ | ⟨-, -, hcontinues⟩⟩
      · exact absurd hd (not_holds_of_looking hnext)
      · exact absurd hd (not_holds_of_looking hnext)
      · exact hcontinues

/-- Inside a block of orderly lines the search is outside of every list, and knows of the block. -/
lemma looking_of_orderly (h : Orderly ls) (hopen : 0 < depthOver 0 (ls.map Line.text)) :
    (start.run ls).reader = .looking ∧ 0 < (start.run ls).nesting := by
  obtain ⟨hnesting, -⟩ := settled_run h
  rw [← hnesting] at hopen
  refine ⟨?_, hopen⟩
  rcases (start.run ls).looking_or_holds with hlooking | ⟨d, hd⟩
  · exact hlooking
  · have := (sound_start.run ls) d hd
    omega

/-! ### Lines that are passed over -/

/-- A line with nothing to read, which is no marker, is passed over. -/
lemma next_of_read_eq_none (hlooking : s.reader = .looking) (hread : s.read l = none)
    (hplain : isMarker l.text = false) : s.next l = s ∧ s.out l = [] := by
  obtain ⟨nesting, reader⟩ := s
  obtain rfl : reader = .looking := hlooking
  rw [next, out, hread, nestingAfter]
  exact ⟨congrArg (State.mk · .looking) (Source.depthAfter_of_plain hplain nesting), rfl⟩

/-- A hidden line that is no marker is passed over. -/
lemma next_of_hidden (hlooking : s.reader = .looking) (hopen : 0 < s.nesting)
    (hplain : isMarker l.text = false) : s.next l = s ∧ s.out l = [] := by
  refine next_of_read_eq_none hlooking ?_ hplain
  rw [read, hlooking]
  exact if_pos (Source.hides_of_pos hopen l.text)

/-- A line without header, which is no marker, is passed over outside of lists. -/
lemma next_of_head?_eq_none (hlooking : s.reader = .looking) (hhead : head? l.text = none)
    (hplain : isMarker l.text = false) : s.next l = s ∧ s.out l = [] := by
  refine next_of_read_eq_none hlooking ?_ hplain
  rw [read, hlooking, hhead]
  exact ite_self none

/-- **Lines that are passed over** can be left out of the search. -/
lemma find_pass {above passed : List Line}
    (h : ∀ x ∈ passed, (s.run above).next x = s.run above ∧ (s.run above).out x = [])
    (below : List Line) :
    s.find (above ++ passed ++ below) = s.find (above ++ below) := by
  rw [List.append_assoc, find_append, find_append s above below]
  congr 1
  induction passed with
  | nil => rfl
  | cons x passed ih =>
    obtain ⟨⟨hnext, hout⟩, hpassed⟩ := List.forall_mem_cons.mp h
    rw [List.cons_append, find_cons, hnext, hout, List.nil_append]
    exact ih hpassed

/-- **Hidden lines can be left out** of the search. -/
lemma find_drop {above hidden : List Line} (hlooking : (s.run above).reader = .looking)
    (hopen : 0 < (s.run above).nesting) (hplain : ∀ x ∈ hidden, isMarker x.text = false)
    (below : List Line) : s.find (above ++ hidden ++ below) = s.find (above ++ below) :=
  find_pass (fun x hx => next_of_hidden hlooking hopen (hplain x hx)) below

end State

/-! ### Lines in other places -/

/-- A definition at another offset. -/
def moved (f : Nat → Nat) (d : FunctionDef) : FunctionDef :=
  { d with offset := f d.offset }

/-- A definition on another line, at another offset. -/
def relocated (g f : Nat → Nat) (d : FunctionDef) : FunctionDef :=
  { d with line := g d.line, offset := f d.offset }

/-- What the reader is doing, with the definition at another offset. -/
def Reader.moved (f : Nat → Nat) : Reader → Reader
  | .looking => .looking
  | .reading found depth => .reading (found.moved f) depth

/-- What the reader is doing, with the definition on another line. -/
def Reader.relocated (g f : Nat → Nat) : Reader → Reader
  | .looking => .looking
  | .reading found depth => .reading (found.relocated g f) depth

lemma afterPiece_relocated (g f : Nat → Nat) (found : FunctionDef) (current : Text) (p : Piece) :
    afterPiece (found.relocated g f) current p = (afterPiece found current p).relocated g f := by
  rw [afterPiece, afterPiece]
  split_ifs <;> rfl

namespace State

/-- A state with the definition at another offset. -/
def moved (f : Nat → Nat) (s : State) : State :=
  { s with reader := s.reader.moved f }

/-- A state with the definition on another line. -/
def relocated (g f : Nat → Nat) (s : State) : State :=
  { s with reader := s.reader.relocated g f }

lemma read_relocated (g f : Nat → Nat) (s : State) (l : Line) :
    (s.relocated g f).read (l.relocated g f) =
    (s.read l).map (Prod.map (FunctionDef.relocated g f) (Reader.relocated g f)) := by
  obtain ⟨nesting, reader⟩ := s
  cases reader with
  | reading found depth =>
    let p := piece none depth (Text.trimStart l.text)
    let d : FunctionDef := { found with params := joinable found.params ++ p.text }
    exact congrArg (fun r => some (d.relocated g f, r)) (afterPiece_relocated g f d l.text p)
  | looking =>
    show (if hides nesting l.text then none else (head? l.text).map _) =
      Option.map _ (if hides nesting l.text then none else (head? l.text).map _)
    by_cases hhides : hides nesting l.text
    · rw [if_pos hhides, if_pos hhides]
      rfl
    · rw [if_neg hhides, if_neg hhides]
      rcases head? l.text with - | ⟨name, rest⟩
      · rfl
      · let p := piece none 0 rest
        let d : FunctionDef := ⟨name, p.text, l.index, l.offset⟩
        exact congrArg (fun r => some (d.relocated g f, r)) (afterPiece_relocated g f d l.text p)

/-- **The search does not look at places**: lines in other places give definitions in other
places. -/
lemma find_relocated (g f : Nat → Nat) (s : State) (ls : List Line) :
    (s.relocated g f).find (ls.map (Line.relocated g f)) =
      (s.find ls).map (FunctionDef.relocated g f) := by
  induction ls generalizing s with
  | nil =>
    obtain ⟨nesting, reader⟩ := s
    cases reader <;> rfl
  | cons l ls ih =>
    have hstep : (s.relocated g f).next (l.relocated g f) = (s.next l).relocated g f ∧
        (s.relocated g f).out (l.relocated g f) = (s.out l).map (FunctionDef.relocated g f) := by
      have hnesting : (s.relocated g f).nestingAfter (l.relocated g f) = s.nestingAfter l := by
        obtain ⟨nesting, reader⟩ := s
        cases reader <;> rfl
      simp only [next, out, hnesting, read_relocated]
      rcases s.read l with - | ⟨found, reader⟩
      · exact ⟨rfl, rfl⟩
      · cases reader <;> exact ⟨rfl, rfl⟩
    rw [List.map_cons, find_cons, find_cons, hstep.1, hstep.2, ih, List.map_append]

/-- **The search does not look at offsets**: moved lines give moved definitions. -/
lemma find_moved (f : Nat → Nat) (s : State) (ls : List Line) :
    (s.moved f).find (ls.map (Line.moved f)) = (s.find ls).map (FunctionDef.moved f) := by
  have hmoved : s.relocated id f = s.moved f := by
    obtain ⟨nesting, reader⟩ := s
    cases reader <;> rfl
  exact hmoved ▸ find_relocated id f s ls

end State

end FunctionDef

end AutoItServer
