import AutoItServer.Function.Parameter
import AutoItServer.Proofs.Function.Reader
import AutoItServer.Proofs.Text.Case
import Mathlib.Data.List.Nodup

/-!
Definitions and the lines that they stand on.

* `FunctionDef.pairwise_findAll` (**one definition a line**): the definitions of a text come in the
  order of their lines, so that a line tells which definition stands there.
* `FunctionDef.exists_header_of_mem`: the line of a definition, and what the search knows above it.
* `FunctionDef.lf_not_mem_params`, `Parameter.parts_of_parse?` (**no line ends in a parameter**):
  the lines of a list are joined without their terminators, and a parameter is a part of the list.
-/

namespace AutoItServer

namespace Text

variable {t : Text}

lemma le_index_of_mem {i o : Nat} {raws : List Text} {l : Line} (h : l ∈ numberLines i o raws) :
    i ≤ l.index := by
  obtain ⟨ls, ms, hsplit⟩ := List.append_of_mem h
  rw [index_of_numberLines hsplit]
  exact Nat.le_add_right i _

lemma pairwise_index (i o : Nat) (raws : List Text) :
    (numberLines i o raws).Pairwise fun l m => l.index < m.index := by
  induction raws generalizing i o with
  | nil => exact .nil
  | cons raw raws ih => exact List.pairwise_cons.mpr ⟨fun m hm => le_index_of_mem hm, ih (i + 1) _⟩

/-! ### Parts of a text -/

lemma trimStart_subset (t : Text) : trimStart t ⊆ t :=
  (List.dropWhile_suffix isBlank).subset

lemma trimEnd_subset (t : Text) : trimEnd t ⊆ t := by
  intro c hc
  exact List.mem_reverse.mp ((List.dropWhile_suffix isBlank).subset (List.mem_reverse.mp hc))

lemma trim_subset (t : Text) : trim t ⊆ t :=
  List.Subset.trans (trimEnd_subset _) (trimStart_subset t)

end Text

namespace FunctionDef

namespace State

variable {s : State} {ls : List Line} {d : FunctionDef}

/-! ### One definition a line -/

/-- **The definitions come in the order of their lines.** The one that the search is inside of
stands further up. -/
lemma pairwise_find (hs : ∀ d, s.Holds d → ∀ l ∈ ls, d.line < l.index)
    (hls : ls.Pairwise fun l m => l.index < m.index) :
    (s.find ls).Pairwise fun c d => c.line < d.line := by
  induction ls generalizing s with
  | nil =>
    obtain ⟨nesting, reader⟩ := s
    cases reader with
    | looking => exact .nil
    | reading found depth => exact List.pairwise_singleton _ _
  | cons l ls ih =>
    obtain ⟨hl, hls⟩ := List.pairwise_cons.mp hls
    rw [find_cons]
    rcases step_cases s l with ⟨-, -, hnext, hout⟩ | ⟨d, hfrom, hto⟩
    · rw [hout]
      exact ih (fun d hd => absurd hd (not_holds_of_looking hnext)) hls
    · have hbelow : ∀ m ∈ ls, d.line < m.index := by
        intro m hm
        rcases hfrom with ⟨-, hplace⟩ | hheld
        · have hline : d.line = l.index := congrArg (fun p => p.2.1) hplace
          exact hline ▸ hl m hm
        · exact hs d hheld m (List.mem_cons_of_mem l hm)
      rcases hto with ⟨hnext, hout⟩ | ⟨hheld, hout, -⟩
      · rw [hout, List.singleton_append, List.pairwise_cons]
        refine ⟨fun c hc => ?_, ih (fun d hd => absurd hd (not_holds_of_looking hnext)) hls⟩
        obtain ⟨above, m, below, rfl, -, hplace⟩ :=
          (holds_or_meets_of_mem hc).resolve_left (not_holds_of_looking hnext)
        have hline : c.line = m.index := congrArg (fun p => p.2.1) hplace
        exact hline ▸ hbelow m (by simp)
      · rw [hout]
        refine ih (fun c hc m hm => ?_) hls
        have hline : c.line = d.line := congrArg (fun p => p.2.1) (hc.heading_eq hheld)
        exact hline ▸ hbelow m hm

end State

variable {t : Text} {c d : FunctionDef}

lemma pairwise_findAll (t : Text) : (findAll t).Pairwise fun c d => c.line < d.line :=
  State.pairwise_find (s := .start) (fun _ h => absurd h (State.not_holds_of_looking rfl))
    (Text.pairwise_index 0 0 _)

/-- A line tells which definition stands there. -/
lemma eq_of_line_eq (hc : c ∈ findAll t) (hd : d ∈ findAll t) (h : c.line = d.line) : c = d := by
  have hnodup : ((findAll t).map FunctionDef.line).Nodup :=
    List.pairwise_map.mpr ((pairwise_findAll t).imp Nat.ne_of_lt)
  exact List.inj_on_of_nodup_map hnodup hc hd h

/-- **The line of a definition**: the search looks at it, outside of lists and of blocks. -/
lemma exists_header_of_mem (hd : d ∈ findAll t) :
    ∃ above l below, Text.lines t = above ++ l :: below ∧ (State.start.run above).LooksAt l d.name ∧
      d.line = above.length ∧ l.index = d.line ∧ l.offset = d.offset := by
  obtain ⟨above, l, below, hlines, hlooks, hplace⟩ :=
    (State.holds_or_meets_of_mem (s := .start) hd).resolve_left (State.not_holds_of_looking rfl)
  have hline : d.line = l.index := congrArg (fun p => p.2.1) hplace
  have hoffset : d.offset = l.offset := congrArg (fun p => p.2.2) hplace
  refine ⟨above, l, below, hlines, hlooks, ?_, hline.symm, hoffset.symm⟩
  rw [hline, Text.index_of_numberLines hlines, Nat.zero_add]

/-- So does its offset. -/
lemma eq_of_offset_eq (hc : c ∈ findAll t) (hd : d ∈ findAll t) (h : c.offset = d.offset) :
    c = d := by
  obtain ⟨above, l, below, hlines, -, hline, -, hoffset⟩ := exists_header_of_mem hc
  obtain ⟨above', m, below', hlines', -, hline', -, hoffset'⟩ := exists_header_of_mem hd
  have habove : above = above' :=
    Text.above_eq_of_offset_eq hlines hlines' (by rw [hoffset, hoffset', h])
  exact eq_of_line_eq hc hd (by rw [hline, hline', habove])

/-! ### The name and the parameters -/

lemma afterIndent?_suffix {t rest : Text} (h : afterIndent? t = some rest) : rest <:+ t := by
  cases t with
  | nil => cases h
  | cons c t =>
    rw [afterIndent?] at h
    split_ifs at h
    exact Option.some.inj h ▸ (List.dropWhile_suffix isIndent).trans (List.suffix_cons c t)

/-- A keyword and the blanks behind it stand at the start of a text. -/
lemma afterWord?_suffix {keyword t rest : Text}
    (h : (Text.afterFolded? keyword t).bind afterIndent? = some rest) :
    rest <:+ t := by
  obtain ⟨after, hafter, hrest⟩ := Option.bind_eq_some_iff.mp h
  exact (afterIndent?_suffix hrest).trans (Text.afterFolded?_suffix hafter)

/-- The header of a definition: a word, and what follows it in the line. -/
lemma parts_of_head? {line rest name : Text} (h : head? line = some (name, rest)) :
    name ≠ [] ∧ (∀ c ∈ name, isWord c) ∧ rest ⊆ line := by
  rw [head?] at h
  obtain ⟨start, hstart, h⟩ := Option.bind_eq_some_iff.mp h
  dsimp only at h
  split at h
  · rename_i c cs params hword hparams
    obtain ⟨rfl, rfl⟩ := Prod.mk.inj (Option.some.inj h)
    refine ⟨hword ▸ List.cons_ne_nil c cs, fun x hx => List.mem_takeWhile_imp hx, ?_⟩
    have hvolatile : ((Text.afterFolded? "volatile".toList (line.dropWhile isIndent)).bind
          afterIndent?).getD
        (line.dropWhile isIndent) <:+ line.dropWhile isIndent := by
      cases hafter : (Text.afterFolded? "volatile".toList (line.dropWhile isIndent)).bind
        afterIndent? with
      | none => exact List.suffix_refl _
      | some after => exact afterWord?_suffix hafter
    have hrest : '(' :: params <:+ start :=
      hparams ▸ (List.dropWhile_suffix _).trans (List.drop_suffix _ _)
    exact ((((List.suffix_cons _ _).trans hrest).trans (afterWord?_suffix hstart)).trans
      (hvolatile.trans (List.dropWhile_suffix _))).subset
  · cases h

lemma piece_text_subset (quote : Option Char) (depth : Nat) (t : Text) :
    (piece quote depth t).text ⊆ t := by
  induction t generalizing quote depth with
  | nil => exact List.Subset.refl []
  | cons c t ih =>
    rw [piece]
    split
    · exact List.nil_subset _
    · split
      · exact List.nil_subset _
      · exact List.cons_subset_cons c (ih _ _)

lemma lf_not_mem_joinable {params : Text} (h : '\n' ∉ params) : '\n' ∉ joinable params := by
  have hdrop : Text.dropLastIf '_' (Text.trimEnd params) ⊆ Text.trimEnd params := by
    rw [Text.dropLastIf]
    split
    · exact List.dropLast_subset _
    · exact List.Subset.refl _
  rw [joinable, List.mem_append, not_or]
  exact ⟨fun hmem => h (Text.trimEnd_subset _ (hdrop (Text.trimEnd_subset _ hmem))), by decide⟩

namespace State

variable {s : State} {ls : List Line} {l : Line}

/-- The list that the search is inside of has no line feed so far. -/
def OneLine (s : State) : Prop :=
  ∀ found depth, s.reader = .reading found depth → '\n' ∉ found.params

/-- A line without line feed brings none into a list. -/
lemma OneLine.read (hs : s.OneLine) (hl : '\n' ∉ l.text) :
    s.read l = none ∨ ∃ d p, s.read l = some (d, afterPiece d l.text p) ∧ '\n' ∉ d.params := by
  cases hreader : s.reader with
  | reading found depth =>
    let p := piece none depth (Text.trimStart l.text)
    have hpiece : '\n' ∉ p.text :=
      fun h => hl (Text.trimStart_subset _ (piece_text_subset none depth _ h))
    refine Or.inr ⟨{ found with params := joinable found.params ++ p.text }, p, ?_, ?_⟩
    · rw [State.read, hreader]
    · rw [List.mem_append, not_or]
      exact ⟨lf_not_mem_joinable (hs found depth hreader), hpiece⟩
  | looking =>
    by_cases hhides : Source.hides s.nesting l.text
    · refine Or.inl ?_
      rw [State.read, hreader]
      exact if_pos hhides
    · rcases hhead : head? l.text with - | ⟨name, rest⟩
      · exact Or.inl (by simp [State.read, hreader, hhead])
      · let p := piece none 0 rest
        have hpiece : '\n' ∉ p.text :=
          fun h => hl ((parts_of_head? hhead).2.2 (piece_text_subset none 0 rest h))
        exact Or.inr ⟨⟨name, p.text, l.index, l.offset⟩, p,
          by simp [State.read, hreader, hhides, hhead, p], hpiece⟩

/-- **The lists that are found** have no line feeds. -/
lemma lf_not_mem_params (hs : s.OneLine) (hls : ∀ l ∈ ls, '\n' ∉ l.text) :
    ∀ d ∈ s.find ls, '\n' ∉ d.params := by
  induction ls generalizing s with
  | nil =>
    obtain ⟨nesting, reader⟩ := s
    cases reader with
    | looking => exact nofun
    | reading found depth =>
      intro d hd
      obtain rfl := List.mem_singleton.mp hd
      exact fun h => hs found depth rfl (Text.trim_subset _ h)
  | cons l ls ih =>
    obtain ⟨hl, hls⟩ := List.forall_mem_cons.mp hls
    rw [find_cons]
    intro d hd
    rcases hs.read hl with hread | ⟨found, p, hread, hfound⟩
    · have hnext : (s.next l).reader = .looking := by simp [next, hread]
      have hout : s.out l = [] := by simp [out, hread]
      rw [hout] at hd
      exact ih (fun x depth hx => by rw [hnext] at hx; cases hx) hls d hd
    · rcases next_of_read hread with ⟨hnext, hout⟩ | ⟨hnext, hout, -⟩
      · rw [hout] at hd
        rcases List.mem_append.mp hd with hd | hd
        · obtain rfl := List.mem_singleton.mp hd
          exact fun h => hfound (Text.trim_subset _ h)
        · exact ih (fun x depth hx => by rw [hnext] at hx; cases hx) hls d hd
      · rw [hout] at hd
        refine ih (fun x depth hx => ?_) hls d hd
        rw [hnext] at hx
        exact (Reader.reading.inj hx).1 ▸ hfound

end State

lemma lf_not_mem_of_mem_lines {l : Line} (h : l ∈ Text.lines t) : '\n' ∉ l.text := by
  obtain ⟨-, -, -, -, -, hline, -⟩ := Text.exists_cut_of_mem h
  exact hline

/-- **The name** of a definition has no blanks. -/
lemma not_isBlank_of_mem_name (hd : d ∈ findAll t) : d.name ≠ [] ∧ ∀ x ∈ d.name, ¬ isBlank x := by
  obtain ⟨above, l, below, -, ⟨-, -, rest, hhead⟩, -⟩ := exists_header_of_mem hd
  obtain ⟨hne, hword, -⟩ := parts_of_head? hhead
  exact ⟨hne, fun x hx => not_isBlank_of_isWord (hword x hx)⟩

/-- **The list** of a definition has no line feeds. -/
lemma lf_not_mem_params (hd : d ∈ findAll t) : '\n' ∉ d.params :=
  State.lf_not_mem_params (s := .start) nofun (fun _ => lf_not_mem_of_mem_lines) d hd

end FunctionDef

namespace Parameter

variable {entry : Text} {p : Parameter}

/-- The pieces of a list are parts of it. -/
lemma pieces_subset (quote : Option Char) (depth : Nat) (t : Text) :
    ∀ piece ∈ (pieces quote depth t).1 :: (pieces quote depth t).2, piece ⊆ t := by
  induction t generalizing quote depth with
  | nil =>
    intro piece hpiece
    exact List.mem_singleton.mp hpiece ▸ List.Subset.refl []
  | cons c t ih =>
    intro piece hpiece
    rw [pieces] at hpiece
    split at hpiece
    · rcases List.mem_cons.mp hpiece with rfl | hpiece
      · exact List.nil_subset _
      · exact List.subset_cons_of_subset c (ih none 0 piece hpiece)
    · dsimp only at hpiece
      rcases List.mem_cons.mp hpiece with rfl | hpiece
      · exact List.cons_subset_cons c (ih _ _ _ List.mem_cons_self)
      · exact List.subset_cons_of_subset c (ih _ _ piece (List.mem_cons_of_mem _ hpiece))

lemma split_subset {list : Text} (h : entry ∈ split list) : entry ⊆ list := by
  obtain ⟨piece, hpiece, rfl⟩ := List.mem_map.mp (List.mem_of_mem_filter h)
  exact List.Subset.trans (Text.trim_subset piece) (pieces_subset none 0 list piece hpiece)

lemma afterQualifier?_subset {word rest : Text} (h : afterQualifier? word entry = some rest) :
    rest ⊆ entry := by
  rw [afterQualifier?] at h
  split at h
  · rename_i c cs hafter
    split at h
    · obtain rfl := Option.some.inj h
      exact List.Subset.trans (Text.trimStart_subset cs)
        ((List.suffix_cons c cs).trans (Text.afterKeyword?_suffix hafter)).subset
    · cases h
  · cases h

lemma qualifiers_subset (fuel : Nat) (q : Qualified) : (qualifiers fuel q).rest ⊆ q.rest := by
  induction fuel generalizing q with
  | zero => exact List.Subset.refl _
  | succ fuel ih =>
    rw [qualifiers]
    split
    · rename_i rest hrest
      exact List.Subset.trans (ih _) (afterQualifier?_subset hrest)
    · split
      · rename_i rest hrest
        exact List.Subset.trans (ih _) (afterQualifier?_subset hrest)
      · exact List.Subset.refl _

/-- **The name and the default value** of a parameter are parts of its entry, and the name is
trimmed. -/
lemma parts_of_parse? (h : parse? entry = some p) :
    Text.Solid p.name ∧ p.name ⊆ entry ∧ ∀ value ∈ p.default, value ⊆ entry := by
  rw [parse?] at h
  split at h
  · cases h
  · rename_i hname
    obtain rfl := Option.some.inj h
    have hrest : (qualifiers (Text.trim entry).length ⟨false, false, Text.trim entry⟩).rest ⊆
        entry :=
      List.Subset.trans (qualifiers_subset _ _) (Text.trim_subset entry)
    refine ⟨Text.solid_trim (by simpa using hname), ?_, fun value hvalue => ?_⟩
    · exact List.Subset.trans (Text.trim_subset _)
        (List.Subset.trans (List.takeWhile_prefix _).subset hrest)
    · dsimp only at hvalue
      split at hvalue
      · cases hvalue
      · obtain rfl := Option.some.inj hvalue
        exact List.Subset.trans (Text.trim_subset _)
          (List.Subset.trans ((List.drop_suffix _ _).trans (List.dropWhile_suffix _)).subset hrest)

end Parameter

end AutoItServer
