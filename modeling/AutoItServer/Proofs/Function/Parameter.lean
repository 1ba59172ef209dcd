import AutoItServer.Proofs.Function.Written
import AutoItServer.Proofs.Include.Precedence

/-!
Parameter lists that are written and read again.

Three readers see a list: the search for definitions, which counts parentheses and stops at
comments, the division into entries, which counts brackets of both kinds, and the reader of one
entry, which looks for the first `=`.

* `Parameter.WithinEntry`: text outside strings at which none of them leaves the entry.
* `Parameter.split_join` (**entries**): a list of such entries is divided where it was put together.
* `Parameter.Writable`, `Parameter.parse?_render` (**one entry**): a parameter is read as it was
  written.
* `Parameter.round_trip`: a definition is found with its parameter list, and the list gives back the
  parameters.
-/

namespace AutoItServer

namespace Parameter

open AutoItServer.Source
open AutoItServer.FunctionDef (isMark not_isMark_of_isWord outside_of_not_isMark)

variable {s t e rest : Text} {es : List Text} {p : Parameter} {ps : List Parameter}

/-! ### Entries of a list -/

/-- Text outside strings that stays inside one entry of a list: it starts no comment, its brackets
are balanced, and its commas stand inside brackets. -/
structure WithinEntry (s : Text) : Prop where
  comment : ';' ∉ s
  round : Balanced '(' ')' s
  square : Balanced '[' ']' s
  comma : ∀ x, x ++ [','] <+: s → x.count ')' + x.count ']' < x.count '(' + x.count '['

instance (s : Text) : Decidable (WithinEntry s) :=
  decidable_of_iff
    (';' ∉ s ∧ Balanced '(' ')' s ∧ Balanced '[' ']' s ∧
      ∀ x ∈ s.inits, x ++ [','] <+: s → x.count ')' + x.count ']' < x.count '(' + x.count '[')
    ⟨fun h => ⟨h.1, h.2.1, h.2.2.1, fun x hx =>
        h.2.2.2 x ((List.mem_inits x s).mpr ((List.prefix_append x _).trans hx)) hx⟩,
      fun h => ⟨h.comment, h.round, h.square, fun x _ => h.comma x⟩⟩

/-- A text that can be written as one entry of a list, or as the end of one. -/
structure IsEntry (e : Text) : Prop where
  ne_nil : e ≠ []
  trimmed : Text.trim e = e
  line : '\n' ∉ e
  outside : ∃ s, Outside e s ∧ WithinEntry s

lemma IsEntry.solid (h : IsEntry e) : Text.Solid e :=
  Text.solid_of_trim_eq h.ne_nil h.trimmed

lemma WithinEntry.append (hs : WithinEntry s) (ht : WithinEntry t) : WithinEntry (s ++ t) where
  comment := by simp [hs.comment, ht.comment]
  round := hs.round.append ht.round
  square := hs.square.append ht.square
  comma x hx := by
    rcases prefix_append_cases hx with hx | ⟨y, hy, hpre⟩
    · exact hs.comma x hx
    rcases List.eq_nil_or_concat y with rfl | ⟨z, c, rfl⟩
    · exact hs.comma x (by rw [hy, List.append_nil])
    · -- the comma stands in the second text, and what the first one opens it closes
      rw [List.concat_eq_append, ← List.append_assoc] at hy
      obtain ⟨rfl, hc⟩ := List.append_inj' hy rfl
      rw [List.concat_eq_append, ← hc] at hpre
      have hcomma := ht.comma z hpre
      have hround := hs.round.closed
      have hsquare := hs.square.closed
      simp only [List.count_append]
      omega

/-- Text without marks can be written in an entry. -/
lemma withinEntry_of_plain (h : ∀ c ∈ s, ¬ isMark c) : WithinEntry s := by
  have hmark : ∀ c, isMark c → c ∉ s := fun c hc hmem => h c hmem hc
  refine ⟨hmark _ rfl, ?_, ?_, fun x hx => ?_⟩
  · exact balanced_of_not_mem (hmark _ rfl) (hmark _ rfl)
  · exact balanced_of_not_mem (hmark _ rfl) (hmark _ rfl)
  · exact absurd (hx.subset (by simp)) (hmark ',' rfl)

lemma isEntry_of_plain (hsolid : Text.Solid e) (hplain : ∀ c ∈ e, ¬ isMark c) : IsEntry e :=
  ⟨hsolid.ne_nil, hsolid.trim_eq, fun hlf => hplain _ hlf rfl, e, outside_of_not_isMark hplain,
    withinEntry_of_plain hplain⟩

/-- A word stands before the rest of an entry. -/
lemma IsEntry.append {word gap : Text} (h : IsEntry e) (hword : Text.Solid word)
    (hplain : ∀ c ∈ word ++ gap, ¬ isMark c) : IsEntry (word ++ (gap ++ e)) := by
  obtain ⟨s, hs, hwithin⟩ := h.outside
  have hsolid := hword.append h.solid gap
  refine ⟨hsolid.ne_nil, hsolid.trim_eq, ?_, (word ++ gap) ++ s, ?_, ?_⟩
  · rw [← List.append_assoc, List.mem_append]
    exact not_or.mpr ⟨fun hlf => hplain _ hlf rfl, h.line⟩
  · rw [← List.append_assoc]
    exact (outside_of_not_isMark hplain).append hs
  · exact (withinEntry_of_plain hplain).append hwithin

/-! ### Dividing a list -/

/-- An opening bracket of either kind. -/
def opens (c : Char) : Bool := c == '(' || c == '['

/-- A closing bracket of either kind. -/
def closes (c : Char) : Bool := c == ')' || c == ']'

/-- The division of a list stops at a comma outside brackets. -/
def piecesScanner : Scanner Nat (Text × List Text) where
  scan := pieces
  copy c p := (c :: p.1, p.2)
  next := depthStep opens closes
  reads d c := c = ',' → 0 < d
  inside _ _ _ _ := rfl
  quote _ _ _ hq := by rcases isQuote_iff.mp hq with rfl | rfl <;> rfl
  char c d cs hc h := by
    have hdepth : depthStep opens closes d c = depthAfter d c := by
      simp [depthAfter, depthStep, opens, closes]
    rw [hdepth]
    by_cases hcomma : c = ','
    · subst hcomma
      simp [pieces, quoteAfter, hc, (h rfl).ne']
    · simp [pieces, quoteAfter, hc, hcomma]

lemma foldr_copy (t : Text) (p : Text × List Text) :
    t.foldr piecesScanner.copy p = (t ++ p.1, p.2) := by
  induction t with
  | nil => rfl
  | cons c t ih =>
    rw [List.foldr_cons, ih]
    rfl

lemma brackets_apart (c : Char) (h : opens c) : closes c = false := by
  rw [opens, Bool.or_eq_true, beq_iff_eq, beq_iff_eq] at h
  rcases h with rfl | rfl <;> rfl

/-- Two kinds of characters are counted one after the other. -/
lemma countP_pair {a b : Char} (hab : a ≠ b) (s : Text) :
    s.countP (fun c => c == a || c == b) = s.count a + s.count b := by
  induction s with
  | nil => rfl
  | cons c s ih =>
    rw [List.countP_cons, List.count_cons, List.count_cons, ih]
    by_cases ha : c = a
    · simp [ha, hab]
      omega
    · by_cases hb : c = b <;> simp [ha, hb, hab.symm, Nat.add_assoc]

lemma countP_opens (s : Text) : s.countP opens = s.count '(' + s.count '[' :=
  countP_pair (by decide) s

lemma countP_closes (s : Text) : s.countP closes = s.count ')' + s.count ']' :=
  countP_pair (by decide) s

lemma WithinEntry.encloses (h : WithinEntry s) : Encloses opens closes 0 s := by
  intro x hx
  rw [countP_opens, countP_closes, Nat.zero_add]
  exact Nat.add_le_add (h.round.opened x hx) (h.square.opened x hx)

/-- The brackets that are open behind the beginning of an entry. -/
lemma WithinEntry.foldl_depthStep (h : WithinEntry (s ++ t)) :
    s.foldl (depthStep opens closes) 0 + (s.count ')' + s.count ']') =
      s.count '(' + s.count '[' := by
  have hdepth := Source.foldl_depthStep brackets_apart h.encloses.left
  rwa [countP_opens, countP_closes, Nat.zero_add] at hdepth

/-- **An entry is passed over**, and no bracket is open behind it. -/
lemma pieces_outside (h : Outside t s) (hs : WithinEntry s) (rest : Text) :
    pieces none 0 (t ++ rest) = (t ++ (pieces none 0 rest).1, (pieces none 0 rest).2) := by
  have hreads : ∀ x c y, s = x ++ c :: y → c = ',' → 0 < x.foldl (depthStep opens closes) 0 := by
    rintro x _ y rfl rfl
    have hcomma := hs.comma x ⟨y, by simp⟩
    have hdepth := hs.foldl_depthStep
    omega
  have hclosed : s.foldl (depthStep opens closes) 0 = 0 := by
    have hround := hs.round.closed
    have hsquare := hs.square.closed
    have hdepth := WithinEntry.foldl_depthStep (t := []) (by rwa [List.append_nil])
    omega
  have hscan : pieces none 0 (t ++ rest) =
      (t ++ (pieces none (s.foldl (depthStep opens closes) 0) rest).1,
        (pieces none (s.foldl (depthStep opens closes) 0) rest).2) :=
    (piecesScanner.scan_outside h hreads rest).trans (foldr_copy t _)
  rwa [hclosed] at hscan

/-- A comma with a space behind it starts the next piece. -/
lemma pieces_comma (t : Text) :
    pieces none 0 (", ".toList ++ t) = ([], (' ' :: (pieces none 0 t).1) :: (pieces none 0 t).2) :=
  rfl

/-- Each comma that joins two entries divides them. -/
lemma pieces_join (he : IsEntry e) (hes : ∀ f ∈ es, IsEntry f) :
    pieces none 0 (Text.join ", ".toList (e :: es)) = (e, es.map (' ' :: ·)) := by
  induction es generalizing e with
  | nil =>
    obtain ⟨s, hs, hwithin⟩ := he.outside
    rw [Text.join, ← List.append_nil e, pieces_outside hs hwithin, pieces]
    rfl
  | cons f es ih =>
    obtain ⟨s, hs, hwithin⟩ := he.outside
    obtain ⟨hf, hes⟩ := List.forall_mem_cons.mp hes
    rw [Text.join_cons_cons, pieces_outside hs hwithin, pieces_comma, ih hf hes, List.append_nil,
      List.map_cons]

/-- **Entries**: a list is divided where it was put together. -/
lemma split_join (hes : ∀ e ∈ es, IsEntry e) : split (Text.join ", ".toList es) = es := by
  have hkept : ∀ e ∈ es, (!e.isEmpty) = true := by
    intro e he
    simpa using (hes e he).ne_nil
  cases es with
  | nil => rfl
  | cons e es =>
    obtain ⟨he, hes⟩ := List.forall_mem_cons.mp hes
    have htrim : ∀ f ∈ es, (Text.trim ∘ (' ' :: ·)) f = f := by
      intro f hf
      exact (hes f hf).trimmed
    rw [split, pieces_join he hes]
    dsimp only
    rw [List.map_cons, List.map_map, he.trimmed, List.map_congr_left htrim, List.map_id',
      List.filter_eq_self.mpr hkept]

/-! ### One entry -/

/-- A parameter that can be written in a list. -/
structure Writable (p : Parameter) : Prop where
  name : ∃ word, p.name = '$' :: word ∧ ∀ c ∈ word, isWord c
  default : ∀ v ∈ p.default, IsEntry v

/-- An entry with a qualifier before it, if there is one. -/
def qualified (word : Text) (given : Bool) (rest : Text) : Text :=
  if given then word ++ ([' '] ++ rest) else rest

lemma qualified_false (word rest : Text) : qualified word false rest = rest := rfl

lemma qualified_true (word rest : Text) : qualified word true rest = word ++ ([' '] ++ rest) := rfl

/-- What an entry says behind its qualifiers. -/
def declared (p : Parameter) : Text :=
  p.name ++ p.default.elim [] (" = ".toList ++ ·)

lemma render_eq (p : Parameter) :
    render p = qualified "ByRef".toList p.byRef
      (qualified "Const".toList p.isConst p.declared) := by
  obtain ⟨name, byRef, isConst, default⟩ := p
  cases byRef <;> cases isConst <;> cases default <;> simp [render, qualified, declared]

lemma IsEntry.qualified {word : Text} (h : IsEntry rest) (hword : Text.Solid word)
    (hplain : ∀ c ∈ word ++ [' '], ¬ isMark c) (given : Bool) :
    IsEntry (qualified word given rest) := by
  cases given with
  | false => exact h
  | true => exact h.append hword hplain

namespace Writable

lemma forall_mem_name (h : p.Writable) : ∀ c ∈ p.name, c = '$' ∨ isWord c := by
  obtain ⟨word, hword, hchars⟩ := h.name
  rw [hword]
  exact List.forall_mem_cons.mpr ⟨Or.inl rfl, fun c hc => Or.inr (hchars c hc)⟩

lemma solid_name (h : p.Writable) : Text.Solid p.name := by
  obtain ⟨word, hword, -⟩ := h.name
  refine Text.solid_of_forall_not_isBlank (by simp [hword]) fun c hc => ?_
  rcases h.forall_mem_name c hc with rfl | hc
  · decide
  · exact not_isBlank_of_isWord hc

lemma not_isMark_of_mem_name (h : p.Writable) : ∀ c ∈ p.name, ¬ isMark c := by
  intro c hc
  rcases h.forall_mem_name c hc with rfl | hc
  · decide
  · exact not_isMark_of_isWord hc

lemma ne_equals_of_mem_name (h : p.Writable) : ∀ c ∈ p.name, c ≠ '=' := by
  rintro c hc rfl
  rcases h.forall_mem_name _ hc with hc | hc
  · exact absurd hc (by decide)
  · exact absurd hc (by decide)

lemma isEntry_declared (h : p.Writable) : IsEntry p.declared := by
  have hplain := h.not_isMark_of_mem_name
  rw [declared]
  cases hdefault : p.default with
  | none =>
    rw [Option.elim_none, List.append_nil]
    exact isEntry_of_plain h.solid_name hplain
  | some v =>
    have hequals : ∀ c ∈ " = ".toList, ¬ isMark c := List.any_eq_false.mp (by decide)
    exact (h.default v hdefault).append h.solid_name (List.forall_mem_append.mpr ⟨hplain, hequals⟩)

lemma isEntry_render (h : p.Writable) : IsEntry (render p) := by
  rw [render_eq]
  refine (h.isEntry_declared.qualified ?_ ?_ _).qualified ?_ ?_ _
  · exact Text.solid_of_forall_not_isBlank (by decide) (List.any_eq_false.mp (by decide))
  · exact List.any_eq_false.mp (by decide)
  · exact Text.solid_of_forall_not_isBlank (by decide) (List.any_eq_false.mp (by decide))
  · exact List.any_eq_false.mp (by decide)

end Writable

/-- No qualifier starts with a `$`. -/
lemma qualifiers_dollar (fuel : Nat) (byRef isConst : Bool) (rest : Text) :
    qualifiers fuel ⟨byRef, isConst, '$' :: rest⟩ = ⟨byRef, isConst, '$' :: rest⟩ := by
  cases fuel <;> rfl

lemma qualifiers_const {fuel : Nat} (byRef given : Bool) (rest : Text)
    (hfuel : (qualified "Const".toList given ('$' :: rest)).length ≤ fuel) :
    qualifiers fuel ⟨byRef, false, qualified "Const".toList given ('$' :: rest)⟩ =
      ⟨byRef, given, '$' :: rest⟩ := by
  cases given with
  | false => exact qualifiers_dollar fuel byRef false rest
  | true =>
    obtain ⟨fuel, rfl⟩ := Nat.exists_eq_succ_of_ne_zero (Nat.ne_zero_of_lt hfuel)
    exact qualifiers_dollar fuel byRef true rest

lemma qualifiers_byRef {fuel : Nat} (byRef isConst : Bool) (rest : Text)
    (hfuel : (qualified "ByRef".toList byRef
      (qualified "Const".toList isConst ('$' :: rest))).length ≤ fuel) :
    qualifiers fuel
        ⟨false, false, qualified "ByRef".toList byRef
          (qualified "Const".toList isConst ('$' :: rest))⟩ =
      ⟨byRef, isConst, '$' :: rest⟩ := by
  cases byRef with
  | false =>
    rw [qualified_false] at hfuel ⊢
    exact qualifiers_const false isConst rest hfuel
  | true =>
    obtain ⟨fuel, rfl⟩ := Nat.exists_eq_succ_of_ne_zero (Nat.ne_zero_of_lt hfuel)
    have hshort : (qualified "Const".toList isConst ('$' :: rest)).length ≤ fuel := by
      rw [qualified_true, List.length_append, List.length_append, List.length_singleton] at hfuel
      omega
    rw [← qualifiers_const true isConst rest hshort]
    cases isConst <;> rfl

/-- The name stands before the first `=`, and the default value behind it. -/
lemma Writable.parts_declared (h : p.Writable) :
    Text.trim (p.declared.takeWhile (· ≠ '=')) = p.name ∧
      Text.trim ((p.declared.dropWhile (· ≠ '=')).drop 1) = p.default.getD [] := by
  have hname : ∀ c ∈ p.name, decide (c ≠ '=') = true := fun c hc =>
    decide_eq_true (h.ne_equals_of_mem_name c hc)
  cases hdefault : p.default with
  | none =>
    have htext : p.declared = p.name := by
      rw [declared, hdefault, Option.elim_none, List.append_nil]
    rw [htext, List.takeWhile_eq_self_iff.mpr hname, List.dropWhile_eq_nil_iff.mpr hname]
    exact ⟨h.solid_name.trim_eq, rfl⟩
  | some v =>
    have htext : p.declared = (p.name ++ [' ']) ++ '=' :: ' ' :: v := by simp [declared, hdefault]
    have hbefore : ∀ c ∈ p.name ++ [' '], decide (c ≠ '=') = true :=
      List.forall_mem_append.mpr ⟨hname, List.forall_mem_singleton.mpr rfl⟩
    rw [htext, List.takeWhile_append_of_pos hbefore, List.dropWhile_append_of_pos hbefore,
      List.takeWhile_cons_of_neg (by decide), List.dropWhile_cons_of_neg (by decide),
      List.append_nil]
    constructor
    · have hstart := h.solid_name.trimStart_append [' ']
      rw [Text.trim, hstart, Text.trimEnd_append (List.all_eq_true.mp (by decide))]
      exact h.solid_name.trimEnd_append []
    · exact (h.default v hdefault).trimmed

/-- **One entry** is read as it was written. -/
lemma parse?_render (h : p.Writable) : parse? (render p) = some p := by
  have hread : qualifiers (render p).length ⟨false, false, render p⟩ =
      ⟨p.byRef, p.isConst, p.declared⟩ := by
    obtain ⟨word, hword, -⟩ := h.name
    have hdollar : p.declared = '$' :: (word ++ p.default.elim [] (" = ".toList ++ ·)) := by
      rw [declared, hword, List.cons_append]
    rw [render_eq, hdollar]
    exact qualifiers_byRef _ _ _ (Nat.le_refl _)
  obtain ⟨hname, hvalue⟩ := h.parts_declared
  have hnonempty : p.name.isEmpty = false := by simpa using h.solid_name.ne_nil
  have hdefault : (if (p.default.getD []).isEmpty then none else some (p.default.getD [])) =
      p.default := by
    cases hsome : p.default with
    | none => rfl
    | some v =>
      have hv : v.isEmpty = false := by simpa using (h.default v hsome).ne_nil
      rw [Option.getD_some, hv]
      rfl
  rw [parse?, h.isEntry_render.trimmed, hread]
  dsimp only
  rw [hname, hvalue, hnonempty, hdefault]
  rfl

/-! ### The whole list -/

/-- A parameter list as it is written. -/
def listText (ps : List Parameter) : Text :=
  Text.join ", ".toList (ps.map render)

/-- The text of a list stays on its line and inside its parentheses. -/
lemma exists_outside_join (hes : ∀ e ∈ es, IsEntry e) :
    '\n' ∉ Text.join ", ".toList es ∧
      ∃ s, Outside (Text.join ", ".toList es) s ∧ ';' ∉ s ∧ Balanced '(' ')' s := by
  induction es with
  | nil => exact ⟨nofun, [], .nil, nofun, by decide⟩
  | cons e es ih =>
    obtain ⟨he, hes⟩ := List.forall_mem_cons.mp hes
    obtain ⟨s, hs, hwithin⟩ := he.outside
    obtain ⟨hline, s', hs', hcomment, hbalanced⟩ := ih hes
    cases es with
    | nil => exact ⟨he.line, s, hs, hwithin.comment, hwithin.round⟩
    | cons f es =>
      have hsep : Outside ", ".toList ", ".toList := outside_of_plain (by decide)
      rw [Text.join_cons_cons]
      refine ⟨?_, s ++ (", ".toList ++ s'), hs.append (hsep.append hs'), ?_, ?_⟩
      · rw [List.mem_append, List.mem_append, not_or, not_or]
        exact ⟨he.line, by decide, hline⟩
      · rw [List.mem_append, List.mem_append, not_or, not_or]
        exact ⟨hwithin.comment, by decide, hcomment⟩
      · exact hwithin.round.append ((by decide : Balanced '(' ')' ", ".toList).append hbalanced)

lemma trim_listText (hps : ∀ p ∈ ps, p.Writable) : Text.trim (listText ps) = listText ps := by
  cases ps with
  | nil => rfl
  | cons p ps =>
    obtain ⟨hp, hps⟩ := List.forall_mem_cons.mp hps
    refine (Text.solid_join _ hp.isEntry_render.solid ?_).trim_eq
    exact List.forall_mem_map.mpr fun q hq => (hps q hq).isEntry_render.solid

/-- The parameters of a signature are those that its list was written from. -/
lemma keys_params_ofDef (hps : ∀ p ∈ ps, p.Writable) (hnames : (ps.map Parameter.name).Nodup)
    (lines : List Text) (file name : Text) (line offset : Nat) :
    (Signature.ofDef lines file ⟨name, listText ps, line, offset⟩).params.keys =
      ps.map Parameter.name := by
  have hentries : ∀ e ∈ ps.map render, IsEntry e :=
    List.forall_mem_map.mpr fun p hp => (hps p hp).isEntry_render
  have hparsed : (ps.map render).filterMap parse? = ps := by
    have hread : ∀ p ∈ ps, (parse? ∘ render) p = some p := by
      intro p hp
      rw [Function.comp_apply, parse?_render (hps p hp)]
    rw [List.filterMap_map, List.filterMap_congr hread, List.filterMap_some]
  have hkeys : (((ps.map render).filterMap parse?).map fun p =>
      (p.name, (Signature.headerOf? lines ⟨name, listText ps, line, offset⟩).bind
        (Header.paramDoc? · p.name))).map Prod.fst = ps.map Parameter.name := by
    rw [hparsed, List.map_map]
    rfl
  simp only [Signature.ofDef]
  rw [show split (listText ps) = ps.map render from split_join hentries,
    OrderedMap.keys_ofList_of_nodup (by rw [hkeys]; exact hnames), hkeys]

/-- **Round trip.** A definition that is written out is found first, with its parameter list as it
was written. The list is divided into the entries it was put together from, each entry gives back
its parameter, and the signature shows the parameters in order, unless the function is defined again
further down. -/
theorem list_round_trip {name : Text} (hname : FunctionDef.IsName name) (hps : ∀ p ∈ ps, p.Writable)
    (hnames : (ps.map Parameter.name).Nodup) (rest : Text) :
    ∃ later,
      FunctionDef.findAll (FunctionDef.oneLine name (listText ps) ++ rest) =
        ⟨name, listText ps, 0, 0⟩ :: later ∧
      split (listText ps) = ps.map render ∧
      (∀ p ∈ ps, parse? (render p) = some p) ∧
      ∀ file, (∀ d ∈ later, Text.lower d.name ≠ Text.lower name) →
        ∃ sig,
          (Signature.ofText (FunctionDef.oneLine name (listText ps) ++ rest) file).find?
            (Text.lower name) =
            some sig ∧
          sig.name = name ∧ sig.params.keys = ps.map Parameter.name := by
  have hentries : ∀ e ∈ ps.map render, IsEntry e :=
    List.forall_mem_map.mpr fun p hp => (hps p hp).isEntry_render
  obtain ⟨hline, s, hs, hcomment, hbalanced⟩ := exists_outside_join hentries
  obtain ⟨later, hfound, -⟩ :=
    FunctionDef.exists_findAll_oneLine hname hline hs hcomment hbalanced rest
  rw [← listText, trim_listText hps] at hfound
  refine ⟨later, hfound, split_join hentries, fun p hp => parse?_render (hps p hp),
    fun file hlater => ?_⟩
  have hothers : later.filter (fun d => Text.lower d.name == Text.lower name) = [] := by
    rw [List.filter_eq_nil_iff]
    intro d hd
    simpa using hlater d hd
  have hlast : Signature.last? (Text.lower name)
      (FunctionDef.oneLine name (listText ps) ++ rest) file =
      some (Signature.ofDef
        ((Text.lines (FunctionDef.oneLine name (listText ps) ++ rest)).map Line.text) file
        ⟨name, listText ps, 0, 0⟩) := by
    rw [Signature.last?, hfound, List.filter_cons_of_pos (by simp), hothers]
    rfl
  rw [Signature.find?_ofText]
  exact ⟨_, hlast, rfl, keys_params_ofDef hps hnames _ file name 0 0⟩

/-- A default value with brackets of both kinds, and with commas, quotes, a `;` and a `=` in its
strings. -/
def nestedValue : Text :=
  "Call(\"%d, ;)\", $x[1, 2], ".toList ++ apostrophe :: "it".toList ++ [apostrophe, apostrophe] ++
    "s = (".toList ++ apostrophe :: ")".toList

lemma isEntry_nestedValue : IsEntry nestedValue := by
  refine ⟨by decide, by decide, by decide, "Call(, $x[1, 2], )".toList, ?_, by decide⟩
  show Outside ("Call(".toList ++ ('"' :: "%d, ;)".toList ++ '"' :: (", $x[1, 2], ".toList ++
    (apostrophe :: "it".toList ++
      apostrophe :: (apostrophe :: "s = (".toList ++ apostrophe :: ")".toList)))))
    ("Call(".toList ++ (", $x[1, 2], ".toList ++ ")".toList))
  refine .append (outside_of_plain (by decide)) (.literal rfl (by decide) ?_)
  refine .append (outside_of_plain (by decide))
    (.literal rfl (by decide) (.literal rfl (by decide) ?_))
  exact outside_of_plain (by decide)

/-- Parameters with all kinds of entries. -/
def nestedParams : List Parameter :=
  [⟨"$a".toList, true, true, none⟩, ⟨"$Größe".toList, false, true, some nestedValue⟩,
    ⟨"$".toList, false, false, some "=[(]0)".toList⟩]

lemma writable_of_mem_nestedParams : ∀ p ∈ nestedParams, p.Writable := by
  have hequals : IsEntry "=[(]0)".toList :=
    ⟨by decide, by decide, by decide, _, outside_of_plain (by decide), by decide⟩
  refine List.forall_mem_cons.mpr
    ⟨?_, List.forall_mem_cons.mpr ⟨?_, List.forall_mem_singleton.mpr ?_⟩⟩
  · exact ⟨⟨"a".toList, rfl, List.all_eq_true.mp (by decide)⟩, nofun⟩
  · refine ⟨⟨"Größe".toList, rfl, List.all_eq_true.mp (by decide)⟩, ?_⟩
    rintro v ⟨⟩
    exact isEntry_nestedValue
  · refine ⟨⟨[], rfl, nofun⟩, ?_⟩
    rintro v ⟨⟩
    exact hequals

/-- The round trip of such parameters, in a definition with a comment behind it and another
definition below. -/
theorem list_round_trip_nested :
    (nestedParams.map Parameter.name).Nodup ∧ (∀ p ∈ nestedParams, p.Writable) ∧
      split (listText nestedParams) = nestedParams.map render ∧
      (∀ p ∈ nestedParams, parse? (render p) = some p) ∧
      ∃ sig,
        (Signature.ofText (FunctionDef.oneLine "_Fn".toList (listText nestedParams) ++
            " ; Func (\nFunc Other($x)\nEndFunc".toList) []).find? "_fn".toList = some sig ∧
          sig.params.keys = ["$a".toList, "$Größe".toList, "$".toList] := by
  have hname : FunctionDef.IsName "_Fn".toList := ⟨by decide, List.all_eq_true.mp (by decide)⟩
  have hnames : (nestedParams.map Parameter.name).Nodup := by decide
  obtain ⟨later, hfound, hsplit, hparse, hsignature⟩ :=
    list_round_trip hname writable_of_mem_nestedParams hnames
      " ; Func (\nFunc Other($x)\nEndFunc".toList
  have hlater : later.map FunctionDef.name = ["Other".toList] := by
    have hnamed := congrArg (fun ds => ds.tail.map FunctionDef.name) hfound
    refine hnamed.symm.trans ?_
    decide +kernel
  have hothers : ∀ d ∈ later, Text.lower d.name ≠ Text.lower "_Fn".toList := by
    intro d hd
    have hmem := List.mem_map_of_mem (f := FunctionDef.name) hd
    rw [hlater, List.mem_singleton] at hmem
    rw [hmem]
    decide
  obtain ⟨sig, hsig, -, hkeys⟩ := hsignature [] hothers
  have hlower : Text.lower "_Fn".toList = "_fn".toList := by decide
  rw [hlower] at hsig
  exact ⟨hnames, writable_of_mem_nestedParams, hsplit, hparse, sig, hsig, hkeys⟩

end Parameter

end AutoItServer
