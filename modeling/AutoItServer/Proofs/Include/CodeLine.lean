import AutoItServer.Proofs.Include.Reachability
import AutoItServer.Proofs.Include.Spelling
import AutoItServer.Proofs.Source.Hidden
import AutoItServer.Proofs.Text.Position

/-!
The include directives of a text, and those on its code lines.

The directives of a text are looked for in lines that keep a carriage return at the very end of the
text. All else is read line by line without it: the code lines, and the line that an editor shows.

* `Directive.onCodeLines`: the directives on the code lines of a text.
* `findAll_of_getLast?_ne`: they are all, if the text does not end in a carriage return.
* `Directive.Stranded`: a last line whose directive is lost to the carriage return behind it.
* `findAll_eq_onCodeLines_iff` (**what is lost**): this directive, and no other. All others that an
  editor shows outside block comments are followed by the walk. `stranded_lost`: there are texts
  with such a line.
-/

namespace AutoItServer

namespace Directive

open Include (Content reachable root target?)

variable {t line whole body : Text} {n : Nat} {directive : Directive} {l : Line} {w : Spelling}

/-! ### Line by line -/

/-- The directives on the code lines of a text. -/
def onCodeLines (t : Text) : List Directive :=
  (Source.codeLines t).filterMap fun l => parse? l.text l.index

/-- The directives stand on different lines. -/
lemma pairwise_onCodeLines (t : Text) : (onCodeLines t).Pairwise fun a b => a.line < b.line := by
  have hlines : (Source.codeLines t).Pairwise fun l m => l.index < m.index :=
    (Text.pairwise_index_numberLines 0 0 _).sublist (Source.visibleFrom_sublist 0 _)
  refine List.pairwise_filterMap.mpr (hlines.imp fun {l m} hlt a ha b hb => ?_)
  obtain ⟨v, -, rfl⟩ := exists_spelling_of_parse? ha
  obtain ⟨v', -, rfl⟩ := exists_spelling_of_parse? hb
  exact hlt

lemma findFrom_append (depth n : Nat) (ls ms : List Text) :
    findFrom depth n (ls ++ ms) =
      findFrom depth n ls ++ findFrom (Source.depthOver depth ls) (n + ls.length) ms := by
  induction ls generalizing depth n with
  | nil => rfl
  | cons l ls ih =>
    rw [List.cons_append, findFrom, findFrom, ih, Source.depthOver_cons, List.length_cons,
      Nat.add_assoc, Nat.add_comm 1]
    split_ifs
    · rfl
    · rw [List.append_assoc]

/-- **Line by line**: block comments hide the same lines from both searches. -/
lemma findFrom_eq_filterMap (depth n o : Nat) (raws : List Text) :
    findFrom depth n ((Text.numberLines n o raws).map Line.text) =
      (Source.visibleFrom depth (Text.numberLines n o raws)).filterMap fun l =>
        parse? l.text l.index := by
  induction raws generalizing depth n o with
  | nil => rfl
  | cons raw raws ih =>
    rw [Text.numberLines, List.map_cons, findFrom, Source.visibleFrom, ih]
    dsimp only
    split_ifs
    · rfl
    · rw [List.filterMap_cons]
      cases parse? (Text.dropTerminator raw) n <;> rfl

lemma findAll_of_getLast?_ne (h : t.getLast? ≠ some '\r') : findAll t = onCodeLines t := by
  rw [findAll, Text.strictLines_eq_map_text h]
  exact findFrom_eq_filterMap 0 0 0 _

/-! ### A carriage return at the end of the text -/

/-- A text that ends in a carriage return: whole lines, and a last line without line feed. -/
structure EndsInReturn (t whole body : Text) : Prop where
  text : t = whole ++ (body ++ ['\r'])
  whole : Text.WholeLines whole
  line : '\n' ∉ body

lemma exists_endsInReturn (h : t.getLast? = some '\r') :
    ∃ whole body, EndsInReturn t whole body := by
  obtain ⟨whole, part, rfl, hwhole, hpart⟩ := Text.exists_wholeLines t
  have hlast : part.getLast? = some '\r' := by
    cases hcases : part.getLast? with
    | none =>
      rw [List.getLast?_eq_none_iff.mp hcases, List.append_nil] at h
      exact absurd (hwhole _ h) (by decide)
    | some c => rwa [List.getLast?_append, hcases, Option.some_or] at h
  obtain ⟨body, rfl⟩ := List.getLast?_eq_some_iff.mp hlast
  exact ⟨whole, body, rfl, hwhole, fun hbody => hpart (List.mem_append_left _ hbody)⟩

namespace EndsInReturn

/-- The last line, without its carriage return. -/
def lastLine (whole body : Text) : Line :=
  ⟨(Text.lines whole).length, Text.byteLength whole, body⟩

/-- The number of blocks that are open before the last line. -/
def depth (whole : Text) : Nat :=
  Source.depthOver 0 ((Text.lines whole).map Line.text)

variable (h : EndsInReturn t whole body)

include h

lemma getLast?_text : t.getLast? = some '\r' := by
  rw [h.text, ← List.append_assoc, List.getLast?_concat]

lemma lines_eq : Text.lines t = Text.lines whole ++ [lastLine whole body] := by
  have hline : '\n' ∉ body ++ ['\r'] := by simp [h.line]
  have hdrop : Text.dropTerminator (body ++ ['\r']) = body := by
    rw [Text.dropTerminator, Text.dropLastIf.eq_def '\n', List.getLast?_concat, if_neg (by decide),
      Text.dropLastIf_concat]
  rw [h.text, Text.lines_append h.whole, Text.rawLines_of_lf_not_mem hline (by simp),
    Text.numberLines, Text.numberLines, hdrop]
  rfl

lemma codeLines_eq : Source.codeLines t = Source.codeLines whole ++
    if Source.hides (depth whole) body then [] else [lastLine whole body] := by
  rw [Source.codeLines, h.lines_eq, Source.visibleFrom_append]
  rfl

lemma onCodeLines_eq : onCodeLines t = onCodeLines whole ++
    if Source.hides (depth whole) body then []
    else (parse? body (Text.lines whole).length).toList := by
  rw [onCodeLines, h.codeLines_eq, List.filterMap_append, ← onCodeLines]
  split_ifs
  · rfl
  · rw [List.filterMap_cons]
    dsimp only [lastLine]
    cases parse? body (Text.lines whole).length <;> rfl

lemma findAll_eq : findAll t = onCodeLines whole ++
    if Source.hides (depth whole) body then []
    else (parse? (body ++ ['\r']) (Text.lines whole).length).toList := by
  have hwhole : whole.getLast? ≠ some '\r' := fun hlast => absurd (h.whole _ hlast) (by decide)
  have hline : '\n' ∉ body ++ ['\r'] := by simp [h.line]
  have hhides : Source.hides (depth whole) (body ++ ['\r']) = Source.hides (depth whole) body := by
    rw [Source.hides, Source.hides, Source.isBlockStart_append (by decide)]
  rw [← findAll_of_getLast?_ne hwhole, findAll, findAll, h.text, Text.strictLines_append h.whole,
    Text.strictLines_of_lf_not_mem hline (by simp), findFrom_append,
    Text.strictLines_eq_map_text hwhole, List.length_map, Nat.zero_add, findFrom, findFrom, ← depth]
  simp only [hhides, List.append_nil]

end EndsInReturn

/-! ### What is lost -/

/-- A line whose directive is lost: the last line of a text that ends in a carriage return, outside
block comments and without a comment of its own. -/
structure Stranded (t : Text) (l : Line) (w : Spelling) : Prop where
  ends : t.getLast? = some '\r'
  last : (Text.lines t).getLast? = some l
  visible : l ∈ Source.codeLines t
  written : w.text = l.text
  bare : w.comment = none

/-- A line that a carriage return ends is lost if it is a directive without comment that is not
hidden. -/
lemma EndsInReturn.stranded_iff (h : EndsInReturn t whole body) :
    Stranded t l w ↔ l = lastLine whole body ∧ Source.hides (depth whole) body = false ∧
      w.text = body ∧ w.comment = none := by
  have hlast : (Text.lines t).getLast? = some (lastLine whole body) := by
    rw [h.lines_eq, List.getLast?_concat]
  -- a line of the text before has a smaller index
  have hnew : lastLine whole body ∉ Source.codeLines whole := by
    intro hmem
    have hplace := Text.getElem?_lines_of_mem (Source.mem_lines_of_mem_codeLines hmem)
    rw [lastLine, List.getElem?_eq_none (Nat.le_refl _)] at hplace
    cases hplace
  constructor
  · intro hw
    obtain rfl := Option.some.inj (hw.last.symm.trans hlast)
    refine ⟨rfl, ?_, hw.written, hw.bare⟩
    rw [← Bool.not_eq_true]
    intro hhides
    have hvisible := hw.visible
    rw [h.codeLines_eq, if_pos hhides, List.append_nil] at hvisible
    exact hnew hvisible
  · rintro ⟨rfl, hhides, hwritten, hbare⟩
    refine ⟨h.getLast?_text, hlast, ?_, hwritten, hbare⟩
    rw [h.codeLines_eq, hhides]
    exact List.mem_append_right _ (List.mem_singleton_self _)

/-- **A stranded directive** is the one that is lost. -/
lemma Stranded.onCodeLines_eq (h : Stranded t l w) :
    onCodeLines t = findAll t ++ [⟨w.kind, w.spec, l.index⟩] := by
  obtain ⟨whole, body, hends⟩ := exists_endsInReturn h.ends
  obtain ⟨rfl, hhides, rfl, hbare⟩ := hends.stranded_iff.mp h
  have hlost : parse? (w.text ++ ['\r']) (Text.lines whole).length = none := by
    refine Option.eq_none_iff_forall_ne_some.mpr fun x hx => ?_
    obtain ⟨v, hv, hcomment, -⟩ := (parse?_concat_cr hends.line).mp hx
    exact hcomment (Spelling.text_injective hv ▸ hbare)
  rw [hends.onCodeLines_eq, hends.findAll_eq, hhides, hlost, w.parse?_text hends.line]
  simp [EndsInReturn.lastLine]

/-- **Without one** nothing is lost. -/
lemma findAll_eq_onCodeLines (h : ∀ l w, ¬ Stranded t l w) : findAll t = onCodeLines t := by
  by_cases hends : t.getLast? = some '\r'
  · obtain ⟨whole, body, hends⟩ := exists_endsInReturn hends
    rw [hends.onCodeLines_eq, hends.findAll_eq]
    by_cases hhides : Source.hides (EndsInReturn.depth whole) body
    · rw [if_pos hhides, if_pos hhides]
    · rw [if_neg hhides, if_neg hhides]
      congr 2
      ext x
      rw [parse?_concat_cr hends.line]
      constructor
      · rintro ⟨w, rfl, -, rfl⟩
        exact w.parse?_text hends.line _
      · intro hx
        obtain ⟨w, hw, rfl⟩ := exists_spelling_of_parse? hx
        exact ⟨w, hw, fun hbare => h _ w
          (hends.stranded_iff.mpr ⟨rfl, Bool.not_eq_true _ ▸ hhides, hw, hbare⟩), rfl⟩
  · exact findAll_of_getLast?_ne hends

/-- **One code line**: its directive is listed, unless it is the one that is lost. -/
lemma mem_findAll_iff (hl : l ∈ Source.codeLines t)
    (hparse : parse? l.text l.index = some directive) :
    directive ∈ findAll t ↔ ∀ m w, Stranded t m w → m.index ≠ l.index := by
  have hmem : directive ∈ onCodeLines t := List.mem_filterMap.mpr ⟨l, hl, hparse⟩
  obtain ⟨v, -, rfl⟩ := exists_spelling_of_parse? hparse
  constructor
  · intro hlisted m w hw hindex
    -- what is lost stands below all that is listed
    have hpairwise := pairwise_onCodeLines t
    rw [hw.onCodeLines_eq] at hpairwise
    have hbelow := (List.pairwise_append.mp hpairwise).2.2 _ hlisted _ (List.mem_singleton_self _)
    exact absurd hindex (Nat.ne_of_gt hbelow)
  · intro h
    by_cases hstranded : ∃ m w, Stranded t m w
    · obtain ⟨m, w, hw⟩ := hstranded
      rw [hw.onCodeLines_eq, List.mem_append, List.mem_singleton] at hmem
      exact hmem.resolve_right fun heq => h m w hw (Directive.mk.inj heq).2.2.symm
    · rwa [findAll_eq_onCodeLines fun m w hw => hstranded ⟨m, w, hw⟩]

/-- A directive of a document is followed by the walk. -/
lemma mem_reachable_of_mem_findAll {d : Disk} {settings : Settings} {content : Content}
    {document q : Path}
    (h : directive ∈ findAll t) (hq : target? d settings document directive = some q) :
    q = root document ∨ q ∈ reachable d settings content document t := by
  have hmem : q ∈ Include.targets d settings document (findAll t) :=
    List.mem_filterMap.mpr ⟨_, h, hq⟩
  rw [reachable, Include.reachableFrom_eq]
  exact (Graph.mem_seen_or_found hmem).imp_left List.mem_singleton.mp

/-- **What is lost**: the directives of a text are those on its code lines, but for one that is
stranded. A directive that an editor shows outside block comments is among them, unless it is that
one, and the walk follows it. -/
theorem findAll_eq_onCodeLines_iff (t : Text) :
    (findAll t = onCodeLines t ↔ ∀ l w, ¬ Stranded t l w) ∧
    (∀ l w, Stranded t l w → onCodeLines t = findAll t ++ [⟨w.kind, w.spec, l.index⟩]) ∧
    ∀ n line directive, Text.lineAt? n t = some line → (∃ l ∈ Source.codeLines t, l.index = n) →
      parse? line n = some directive →
      (directive ∈ findAll t ↔ ∀ l w, Stranded t l w → l.index ≠ n) ∧
      (directive ∈ findAll t →
        ∀ (d : Disk) (settings : Settings) (content : Content) (document q : Path),
        target? d settings document directive = some q →
          q = root document ∨ q ∈ reachable d settings content document t) := by
  refine ⟨⟨fun h l w hw => ?_, findAll_eq_onCodeLines⟩, fun l w hw => hw.onCodeLines_eq, ?_⟩
  · have hlost := hw.onCodeLines_eq
    rw [← h] at hlost
    exact absurd (congrArg List.length hlost) (by simp)
  · rintro n line directive hline ⟨l, hl, rfl⟩ hparse
    -- the line shown is the code line
    obtain rfl : l.text = line := by
      have hplace := Text.getElem?_lines_of_mem (Source.mem_lines_of_mem_codeLines hl)
      rw [Text.lineAt?_eq, List.getElem?_map, hplace] at hline
      exact Option.some.inj hline
    exact ⟨mem_findAll_iff hl hparse, fun hlisted _ _ _ _ _ => mem_reachable_of_mem_findAll hlisted⟩

/-- Lines with all kinds of ends, the last one with a comment that takes in the carriage return. -/
def takenIn : Text :=
  "#include 'a.au3'\r\n#cs\n#include <x.au3>\n#ce\n#include <b.au3> ; note\r".toList

/-- The directive on the last line is found, since its carriage return stands in the comment. -/
theorem findAll_eq_onCodeLines_iff_takenIn :
    Text.lineAt? 4 takenIn = some "#include <b.au3> ; note".toList ∧
    (∃ l ∈ Source.codeLines takenIn, l.index = 4) ∧
    parse? "#include <b.au3> ; note".toList 4 = some ⟨.bracketed, "b.au3".toList, 4⟩ ∧
    ∀ l w, Stranded takenIn l w → l.index ≠ 4 := by
  obtain ⟨hline, hvisible, hparse, hmem⟩ :
      Text.lineAt? 4 takenIn = some "#include <b.au3> ; note".toList ∧
      (∃ l ∈ Source.codeLines takenIn, l.index = 4) ∧
      parse? "#include <b.au3> ; note".toList 4 = some ⟨.bracketed, "b.au3".toList, 4⟩ ∧
      ⟨.bracketed, "b.au3".toList, 4⟩ ∈ findAll takenIn := by decide
  have hlisted := ((findAll_eq_onCodeLines_iff takenIn).2.2 4 _ _ hline hvisible hparse).1
  exact ⟨hline, hvisible, hparse, hlisted.mp hmem⟩

/-- The only file beside the document. -/
def oneFile : Disk :=
  Disk.empty.write (.ofString "/a.au3") ⟨[], 0⟩

/-- **A directive is lost**: the line that an editor shows leads to a file that the walk does not
find. -/
theorem stranded_lost :
    Text.lineAt? 0 "#include 'a.au3'\r".toList = some "#include 'a.au3'".toList ∧
    onCodeLines "#include 'a.au3'\r".toList = [⟨.quoted, "a.au3".toList, 0⟩] ∧
    findAll "#include 'a.au3'\r".toList = [] ∧
    target? oneFile .standard (.ofString "/m.au3") ⟨.quoted, "a.au3".toList, 0⟩ =
      some (.ofString "/a.au3") ∧
    reachable oneFile .standard oneFile.text? (.ofString "/m.au3") "#include 'a.au3'\r".toList =
      [] := by
  decide

end Directive

end AutoItServer
