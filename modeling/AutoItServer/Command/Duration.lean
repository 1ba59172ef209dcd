import AutoItServer.Text.Basic

/-!
Durations as text.

* `Duration.text`: in the largest unit that it fills, with two decimals.
* `Duration.milliseconds`: in milliseconds with three decimals.
-/

namespace AutoItServer

/-- A span of time. -/
structure Duration where
  nanoseconds : Nat
deriving Repr, DecidableEq

namespace Duration

/-- A number of units with some decimals, rounded to the nearest, a half upwards. -/
def decimals (places n unit : Nat) : Text :=
  let scale := Nat.pow 10 places
  let scaled := (2 * n * scale + unit) / (2 * unit)
  let fraction := Text.ofNat (scaled % scale)
  Text.ofNat (scaled / scale) ++ ['.'] ++ List.replicate (places - fraction.length) '0' ++ fraction

/-- A duration in the largest unit that it fills. -/
def text (d : Duration) : Text :=
  let n := d.nanoseconds
  if 1000000000 ≤ n then decimals 2 n 1000000000 ++ ['s']
  else if 1000000 ≤ n then decimals 2 n 1000000 ++ "ms".toList
  else if 1000 ≤ n then decimals 2 n 1000 ++ "\u00b5s".toList
  else decimals 2 n 1 ++ "ns".toList

/-- A duration in milliseconds. -/
def milliseconds (d : Duration) : Text :=
  decimals 3 d.nanoseconds 1000000

end Duration

end AutoItServer
