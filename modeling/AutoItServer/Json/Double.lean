import AutoItServer.Text.Basic

/-!
The text of a double: the fewest decimal digits that read back as the same double.

* `Double.decode`: a positive finite double as `m * 2 ^ q`, both exact.
* `Double.shortest`: the digits and the exponent of ten. The reals that round to the double form an
  interval; for one digit, two digits and so on the two neighbours of the value on that decimal grid
  are tested, and the first grid with a neighbour in the interval wins.
* `Double.text`: the layout. From `10 ^ -5` up to below `10 ^ 16` a double is written with a point
  and at least one digit after it, otherwise with a signed exponent.
-/

namespace AutoItServer

namespace Double

/-- A positive number as numerator and denominator. -/
structure Ratio where
  num : Nat
  den : Nat

namespace Ratio

/-- `m * 2 ^ q`. -/
def ofBinary (m : Nat) (q : Int) : Ratio :=
  match q with
  | .ofNat n => ⟨m * Nat.pow 2 n, 1⟩
  | .negSucc n => ⟨m, Nat.pow 2 (n + 1)⟩

/-- `m * 10 ^ q`. -/
def ofDecimal (m : Nat) (q : Int) : Ratio :=
  match q with
  | .ofNat n => ⟨m * Nat.pow 10 n, 1⟩
  | .negSucc n => ⟨m, Nat.pow 10 (n + 1)⟩

/-- `a ≤ b`. -/
def le (a b : Ratio) : Bool :=
  a.num * b.den ≤ b.num * a.den

/-- `a < b`. -/
def lt (a b : Ratio) : Bool :=
  a.num * b.den < b.num * a.den

/-- The distance of two numbers. -/
def dist (a b : Ratio) : Ratio :=
  let x := a.num * b.den
  let y := b.num * a.den
  ⟨(x - y) + (y - x), a.den * b.den⟩

end Ratio

/-- A positive finite double as `m * 2 ^ q`. -/
def decode (bits : UInt64) : Nat × Int :=
  let fraction := bits.toNat % Nat.pow 2 52
  let exponent := (bits.toNat / Nat.pow 2 52) % Nat.pow 2 11
  if exponent = 0 then (fraction, -1074) else (fraction + Nat.pow 2 52, Int.ofNat exponent - 1075)

/-- Whether a number rounds to `m * 2 ^ q`. The neighbour below a power of two is only half as far
away, and the ends of the interval count if `m` is even. -/
def roundsTo (m : Nat) (q : Int) (r : Ratio) : Bool :=
  let low := if m = Nat.pow 2 52 && q > -1074 then Ratio.ofBinary (4 * m - 1) (q - 2)
    else Ratio.ofBinary (2 * m - 1) (q - 1)
  let high := Ratio.ofBinary (2 * m + 1) (q - 1)
  if m % 2 = 0 then low.le r && r.le high else low.lt r && r.lt high

/-- The exponent `k` with `10 ^ (k - 1) ≤ r < 10 ^ k`, found upwards from a lower bound. -/
def magnitude (r : Ratio) : Nat → Int → Int
  | 0, k => k
  | fuel + 1, k => if r.lt (Ratio.ofDecimal 1 k) then k else magnitude r fuel (k + 1)

/-- The digits and the exponent of the neighbour of `m * 2 ^ q` on the grid of `10 ^ e`, if one of
the two rounds to it: of both the nearer, and of a tie the even one. -/
def onGrid? (m : Nat) (q : Int) (e : Int) : Option (Nat × Int) :=
  let value := Ratio.ofBinary m q
  let unit := Ratio.ofDecimal 1 e
  let below := (value.num * unit.den) / (value.den * unit.num)
  let fits (d : Nat) : Bool := d > 0 && roundsTo m q (Ratio.ofDecimal d e)
  let gap (d : Nat) : Ratio := value.dist (Ratio.ofDecimal d e)
  if fits below && fits (below + 1) then
    if (gap below).lt (gap (below + 1)) then some (below, e)
    else if (gap (below + 1)).lt (gap below) then some (below + 1, e)
    else some (if below % 2 = 0 then below else below + 1, e)
  else if fits below then some (below, e)
  else if fits (below + 1) then some (below + 1, e)
  else none

/-- Searches the grids from `10 ^ e` downwards. -/
def search (m : Nat) (q : Int) : Nat → Int → Nat × Int
  | 0, e => (0, e)
  | fuel + 1, e => (onGrid? m q e).getD (search m q fuel (e - 1))

/-- Removes the zeros at the end of the digits. -/
def dropZeros : Nat → Nat × Int → Nat × Int
  | 0, d => d
  | fuel + 1, (d, e) => if d % 10 = 0 && d ≠ 0 then dropZeros fuel (d / 10, e + 1) else (d, e)

/-- The shortest digits of a positive finite double, and the exponent of ten of the last one. -/
def shortest (bits : UInt64) : Nat × Int :=
  let (m, q) := decode bits
  let k := magnitude (Ratio.ofBinary m q) 700 (-330)
  dropZeros 20 (search m q 18 (k - 1))

/-- `n` zeros. -/
def zeros (n : Nat) : Text :=
  List.replicate n '0'

/-- A number with a point and at least one digit after it. -/
def positional (digits : Text) (e : Int) : Text :=
  match e with
  | .ofNat n => digits ++ zeros n ++ ".0".toList
  | .negSucc n =>
    let places := n + 1
    if digits.length > places then
      digits.take (digits.length - places) ++ '.' :: digits.drop (digits.length - places)
    else "0.".toList ++ zeros (places - digits.length) ++ digits

/-- A number with one digit before the point and a signed exponent. -/
def scientific (digits : Text) (e : Int) : Text :=
  let exponent := e + digits.length - 1
  let mark := if exponent < 0 then "e-".toList else "e+".toList
  (match digits with
    | [] => []
    | [d] => [d]
    | d :: ds => d :: '.' :: ds) ++ mark ++ Text.ofNat exponent.natAbs

/-- The text of a finite double. -/
def text (bits : UInt64) : Text :=
  let sign : Text := if bits.toNat ≥ Nat.pow 2 63 then ['-'] else []
  if bits.toNat % Nat.pow 2 63 = 0 then sign ++ "0.0".toList
  else
    let (d, e) := shortest bits
    let digits := Text.ofNat d
    let exponent := e + digits.length - 1
    sign ++ if -5 ≤ exponent && exponent < 16 then positional digits e else scientific digits e

end Double

end AutoItServer
