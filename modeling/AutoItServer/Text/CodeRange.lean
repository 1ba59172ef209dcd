/-!
Tables of code points.

* `CodeRange.Table`: a set of characters as increasing disjoint intervals; `CodeRange.mem` stops at
  the first interval that starts after the character.
* `CodeRange.Shift`: a map on characters as runs that move by one distance each; `CodeRange.image`
  is the moved character, or the character itself if no run holds it.
-/

namespace AutoItServer

namespace CodeRange

/-- A set of characters: the first and last code point of each of its intervals, in order. -/
abbrev Table := List (Nat × Nat)

/-- Whether a table holds a code point. The intervals are in order, so the search ends at the first
one that starts too late. -/
def mem (code : Nat) : Table → Bool
  | [] => false
  | (lo, hi) :: rest => if code < lo then false else code ≤ hi || mem code rest

/-- The code points `first`, `first + step`, … up to `last`, moved together so that `first` goes to
`target`. -/
structure Run where
  first : Nat
  last : Nat
  step : Nat
  target : Nat
deriving Repr, DecidableEq

/-- A map on characters, as runs in the order of their first code point. -/
abbrev Shift := List Run

/-- Where a code point goes, if some run holds it. -/
def move? (code : Nat) : Shift → Option Nat
  | [] => none
  | r :: rest =>
    if code < r.first then none
    else if code ≤ r.last && (code - r.first) % r.step = 0 then some (r.target + (code - r.first))
    else move? code rest

/-- The moved character, or the character itself where the map says nothing. -/
def image (table : Shift) (c : Char) : Char :=
  match move? c.toNat table with
  | some n => Char.ofNat n
  | none => c

end CodeRange

end AutoItServer
