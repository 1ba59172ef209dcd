import AutoItServer.Signature
import AutoItServer.Proofs.Data.OrderedMap
import AutoItServer.Proofs.Function.Reader
import AutoItServer.Proofs.Symbol.Outline

/-!
The functions of an outline and the definitions of a text.

Both are read from the same lines. The outline looks at every line, and the search for definitions
passes over the lines of a parameter list. So a header is in the outline only, if the list of an
earlier header goes on over it.

* `exists_mem_or_holds`: at a code line with a header the search finds the definition, or it is
  inside a list.
* `not_mem_of_holds`: inside a list nothing is found.
* `listed_signed_or_swallowed` (**agreement**): a function of the outline has a signature, or its
  header stands in the list of an earlier one, of which all lines are continued.
-/

namespace AutoItServer

namespace Outline

open AutoItServer.Source (depthOver hides)
open FunctionDef (State findAll)

variable {options : SymbolOptions} {t : Text} {l : Line} {above below : List Line} {f : Symbol}

/-- At a header outside every block the search finds a definition, or it is inside a list. -/
lemma exists_mem_or_holds (hlines : Text.lines t = above ++ l :: below)
    (hvisible : hides (depthOver 0 (above.map Line.text)) l.text = false) (hf : Defines t l f) :
    (∃ d ∈ findAll t, d.name = f.name ∧ d.offset = f.start) ∨
    ∃ d, (State.start.run above).Holds d := by
  refine (State.start.run above).looking_or_holds.imp_left fun hlooking => ?_
  -- the search counts no more open blocks than there are, and here are none
  have hnesting : (State.start.run above).nesting = 0 := by
    have hle := State.nesting_run_le State.sound_start (Nat.le_refl 0) above
    rw [(Source.depthAfter_of_not_hides hvisible).1] at hle
    exact Nat.le_zero.mp hle
  have hlooks : (State.start.run above).LooksAt l f.name := by
    refine ⟨hlooking, ?_, hf.head⟩
    rw [hnesting, ← (Source.depthAfter_of_not_hides hvisible).1, hvisible]
  obtain ⟨d, hd, hheading⟩ := State.exists_mem_of_meets
    (s := .start) (d := ⟨f.name, [], l.index, l.offset⟩) ⟨above, l, below, hlines, hlooks, rfl⟩
  have hname : d.name = f.name := congrArg Prod.fst hheading
  have hoffset : d.offset = l.offset := congrArg (fun p => p.2.2) hheading
  exact ⟨d, hd, hname, hoffset.trans hf.start.symm⟩

/-- Inside a list nothing is found. -/
lemma not_mem_of_holds (hlines : Text.lines t = above ++ l :: below) {held d : FunctionDef}
    (h : (State.start.run above).Holds held) (hd : d ∈ findAll t) : d.offset ≠ l.offset := by
  intro hoffset
  obtain ⟨above', m, below', hlines', ⟨hlooking, -⟩, hheading⟩ :=
    (State.holds_or_meets_of_mem (s := .start) hd).resolve_left (State.not_holds_of_looking rfl)
  have hm : d.offset = m.offset := congrArg (fun p => p.2.2) hheading
  obtain rfl := Text.above_eq_of_offset_eq hlines hlines' (hoffset.symm.trans hm)
  exact State.not_holds_of_looking hlooking h

/-- A list that goes on over a line belongs to a definition above it, and all lines between are
continued. -/
lemma exists_continued_of_holds (hlines : Text.lines t = above ++ l :: below) {held : FunctionDef}
    (h : (State.start.run above).Holds held) :
    ∃ d ∈ findAll t, d.offset < l.offset ∧
      ∀ x ∈ Text.lines t, d.offset ≤ x.offset → x.offset < l.offset → Source.continues x.text := by
  obtain ⟨up, header, list, rfl, hlooks, hplace, hlist⟩ :=
    (State.holds_run h).resolve_left fun hstart => State.not_holds_of_looking rfl hstart.1
  rw [List.append_assoc, List.cons_append] at hlines
  obtain ⟨d, hd, hheading⟩ :=
    State.exists_mem_of_meets ⟨up, header, list ++ l :: below, hlines, hlooks, hplace⟩
  have hoffset : d.offset = header.offset := congrArg (fun p => p.2.2) (hheading.trans hplace)
  obtain ⟨hup, hdown⟩ := Text.offset_lt_of_lines hlines
  refine ⟨d, hd, hoffset ▸ hdown l (by simp), fun x hx hle hlt => ?_⟩
  rw [hlines, ← List.cons_append, List.mem_append, List.mem_append,
    List.mem_cons (a := x) (b := l)] at hx
  rcases hx with hx | hx | rfl | hx
  · have := hup x hx
    omega
  · exact hlist x hx
  · omega
  · rw [← List.cons_append, ← List.append_assoc] at hlines
    have := (Text.offset_lt_of_lines hlines).2 x hx
    omega

/-- **Agreement.** A function of the outline is found as a definition and has a signature, unless it
stands in the parameter list of an earlier definition: then nothing is found at its header, and all
lines from that definition down to the header are continued. -/
theorem listed_signed_or_swallowed (h : f ∈ symbols options t) (hf : f.kind = .function)
    (file : Text) :
    (∃ d ∈ findAll t, d.name = f.name ∧ d.offset = f.start) ∧
        Text.lower f.name ∈ (Signature.ofText t file).keys ∨
      (∀ d ∈ findAll t, d.offset ≠ f.start) ∧
        ∃ d ∈ findAll t, d.offset < f.start ∧
          ∀ x ∈ Text.lines t, d.offset ≤ x.offset → x.offset < f.start →
            Source.continues x.text := by
  obtain ⟨l, hl, hdefines⟩ := exists_defines h hf
  obtain ⟨above, below, hlines, hvisible⟩ := Source.mem_visibleFrom hl
  rcases exists_mem_or_holds hlines hvisible hdefines with ⟨d, hd, hname, hoffset⟩ | ⟨held, hheld⟩
  · refine Or.inl ⟨⟨d, hd, hname, hoffset⟩, OrderedMap.mem_keys_ofList.mpr ?_⟩
    rw [List.map_map, ← hname]
    exact List.mem_map.mpr ⟨d, hd, rfl⟩
  · rw [hdefines.start]
    exact Or.inr ⟨fun d hd => not_mem_of_holds hlines hheld hd,
      exists_continued_of_holds hlines hheld⟩

/-- After a list over two lines the next function has its signature. -/
theorem listed_signed_after_list :
    (⟨"B".toList, .function, none, 25, 41⟩ : Symbol) ∈
        symbols ⟨true, true, 50000⟩ "Func A($x, _\n$y)\nEndFunc\nFunc B()\nEndFunc".toList ∧
      Text.lower "B".toList ∈
        (Signature.ofText "Func A($x, _\n$y)\nEndFunc\nFunc B()\nEndFunc".toList
          "a.au3".toList).keys := by
  have hlisted : (⟨"B".toList, .function, none, 25, 41⟩ : Symbol) ∈
      symbols ⟨true, true, 50000⟩ "Func A($x, _\n$y)\nEndFunc\nFunc B()\nEndFunc".toList := by
    decide +kernel
  refine ⟨hlisted, ((listed_signed_or_swallowed hlisted rfl "a.au3".toList).resolve_right ?_).2⟩
  rintro ⟨hnone, -⟩
  exact absurd hnone (by decide +kernel)

/-- A header in a list that is not closed has no signature. -/
theorem listed_not_signed :
    (⟨"B".toList, .function, none, 10, 26⟩ : Symbol) ∈
        symbols ⟨true, true, 50000⟩ "Func A( _\nFunc B()\nEndFunc".toList ∧
      Text.lower "B".toList ∉
        (Signature.ofText "Func A( _\nFunc B()\nEndFunc".toList "x".toList).keys := by
  decide +kernel

end Outline

end AutoItServer
