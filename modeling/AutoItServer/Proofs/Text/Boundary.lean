import AutoItServer.Text.Position
import Mathlib.Tactic.Lemma
import Mathlib.Tactic.SplitIfs

/-!
Places between the characters of a text.

Every such place cuts the text in two, and is counted in characters, in bytes, or as a position of a
line and a column. The facts here name the two parts, so that the counts can be compared.

* `Text.splitAtByte?_eq_some_iff`: a byte offset cuts a text where the part before it has that
  length.
* `Text.byteLength_le_of_length_le`: a longer beginning has more bytes.
* `Text.firstLine_cons`: the first line, character by character.
-/

namespace AutoItServer

namespace Text

variable {t x y z w : Text}

/-! ### Byte offsets -/

/-- The end of a beginning is a character boundary. -/
lemma splitAtByte?_byteLength (x y : Text) :
    splitAtByte? (byteLength x) (x ++ y) = some (x, y) := by
  induction x with
  | nil => rw [byteLength_nil, List.nil_append, splitAtByte?]
  | cons c x ih =>
    have hsize : c.utf8Size + byteLength x = (c.utf8Size + byteLength x - 1) + 1 := by
      have := c.utf8Size_pos
      omega
    rw [byteLength_cons, List.cons_append, hsize, splitAtByte?, ← hsize, if_pos (by omega),
      Nat.add_sub_cancel_left, ih]
    rfl

/-- **A byte offset** cuts a text where the part before it has that many bytes. -/
lemma splitAtByte?_eq_some_iff {n : Nat} :
    splitAtByte? n t = some (x, y) ↔ t = x ++ y ∧ n = byteLength x := by
  constructor
  · intro h
    fun_induction splitAtByte? n t generalizing x y with
    | case1 t =>
      obtain ⟨rfl, rfl⟩ := Prod.mk.inj (Option.some.inj h)
      exact ⟨rfl, rfl⟩
    | case2 => cases h
    | case3 n c cs hsize ih =>
      obtain ⟨⟨a, b⟩, hab, hxy⟩ := Option.map_eq_some_iff.mp h
      obtain ⟨rfl, rfl⟩ := Prod.mk.inj hxy
      obtain ⟨rfl, hn⟩ := ih hab
      refine ⟨rfl, ?_⟩
      rw [byteLength_cons]
      omega
    | case4 => cases h
  · rintro ⟨rfl, rfl⟩
    exact splitAtByte?_byteLength x y

lemma byteLength_eq_zero_iff : byteLength t = 0 ↔ t = [] := by
  cases t with
  | nil => exact iff_of_true rfl rfl
  | cons c t =>
    have hpos := c.utf8Size_pos
    rw [byteLength_cons]
    exact iff_of_false (by omega) (List.cons_ne_nil c t)

/-- A longer beginning of a text has more bytes. -/
lemma byteLength_le_of_length_le (h : x ++ y = z ++ w) (hlen : x.length ≤ z.length) :
    byteLength x ≤ byteLength z := by
  obtain ⟨s, rfl⟩ : x <+: z := List.prefix_of_prefix_length_le (h ▸ List.prefix_append x y)
    (List.prefix_append z w) hlen
  rw [byteLength_append]
  omega

/-! ### The first line -/

@[simp] lemma firstLine_nil : firstLine [] = [] := rfl

@[simp] lemma firstLine_lf (t : Text) : firstLine ('\n' :: t) = [] := rfl

@[simp] lemma firstLine_crlf (t : Text) : firstLine ('\r' :: '\n' :: t) = [] := rfl

/-- The first line goes on with a character that is no line end. -/
lemma firstLine_cons {c : Char} (hlf : c ≠ '\n') (hcr : c ≠ '\r') (t : Text) :
    firstLine (c :: t) = c :: firstLine t := by
  rw [firstLine, firstLine, List.takeWhile_cons_of_pos (by simpa using hlf)]
  cases hline : t.takeWhile (· ≠ '\n') with
  | nil => simp [dropLastIf, hcr]
  | cons d ds =>
    simp only [dropLastIf, List.getLast?_cons_cons, List.dropLast_cons_cons]
    split_ifs <;> rfl

end Text

end AutoItServer
