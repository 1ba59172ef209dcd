import AutoItServer.Json.Basic

/-!
Reading JSON text: `Json.parse?`.

Of several members of one name the last value counts, at the place of the first. A number that is
not whole, or too large for 64 bits, is read as its leading digits scaled by a power of ten.
-/

namespace AutoItServer

namespace Json

/-! ### Numbers -/

/-- The digits at the start of a text as a number, how many there are, and the rest. -/
def readDigits (acc count : Nat) : Text → Nat × Nat × Text
  | [] => (acc, count, [])
  | c :: cs => if c.isDigit then readDigits (acc * 10 + (c.toNat - 48)) (count + 1) cs
    else (acc, count, c :: cs)

/-- The largest beginning of a number that fits into 64 bits, and how many digits are cut off. -/
def leading : Nat → Nat → Nat → Nat × Nat
  | 0, n, cut => (n, cut)
  | fuel + 1, n, cut => if n < Nat.pow 2 64 then (n, cut) else leading fuel (n / 10) (cut + 1)

/-- `significand * 10 ^ exponent` as a double, unless it is too large for one. -/
def scale? (significand : Nat) (exponent : Int) : Option Float :=
  let f := Float.ofNat significand
  let power (n : Nat) : Float := Float.ofScientific 1 false n
  if significand = 0 then some f
  else match exponent with
    | .ofNat n => if n ≤ 308 then some (f * power n) |>.filter Float.isFinite else none
    | .negSucc n =>
      if n < 308 then some (f / power (n + 1))
      else if n < 616 then some (f / power 308 / power (n + 1 - 308))
      else some 0

/-- The double of a decimal: the digits, of which the last `places` stand after the point, and the
written exponent. -/
def decimal? (negative : Bool) (digits places : Nat) (exponent : Int) : Option Json :=
  let (significand, cut) := leading (digits.log2 + 1) digits 0
  (scale? significand (exponent - places + cut)).map fun f =>
    .double (if negative then (-f).toBits else f.toBits)

/-- The written exponent, if there is one. -/
def readExponent : Text → Option (Option Int × Text)
  | 'e' :: cs => signed cs
  | 'E' :: cs => signed cs
  | cs => some (none, cs)
where
  /-- The digits of an exponent, after a sign if there is one. -/
  signed : Text → Option (Option Int × Text)
    | '-' :: cs => digits true cs
    | '+' :: cs => digits false cs
    | cs => digits false cs
  /-- The digits of an exponent, of which there is at least one. -/
  digits (negative : Bool) (cs : Text) : Option (Option Int × Text) :=
    let (n, count, rest) := readDigits 0 0 cs
    if count = 0 then none else some (some (if negative then -(n : Int) else n), rest)

/-- The number without its sign. -/
def readUnsigned (negative : Bool) (t : Text) : Option (Json × Text) :=
  let (whole, count, rest) := readDigits 0 0 t
  if count = 0 then none
  else match rest with
    | '.' :: cs =>
      let (digits, places, rest) := readDigits whole 0 cs
      if places = 0 then none
      else (readExponent rest).bind fun (e, rest) =>
        (decimal? negative digits places (e.getD 0)).map fun j => (j, rest)
    | _ => (readExponent rest).bind fun
      | (some e, rest) => (decimal? negative whole 0 e).map fun j => (j, rest)
      | (none, rest) =>
        let exact := if negative then 0 < whole && whole ≤ Nat.pow 2 63 else whole < Nat.pow 2 64
        if exact then some (.int (if negative then -(whole : Int) else whole), rest)
        else (decimal? negative whole 0 0).map fun j => (j, rest)

/-! ### Strings -/

/-- The value of a hexadecimal digit. -/
def hexValue? (c : Char) : Option Nat :=
  if c.isDigit then some (c.toNat - 48)
  else if 'a' ≤ c && c ≤ 'f' then some (c.toNat - 87)
  else if 'A' ≤ c && c ≤ 'F' then some (c.toNat - 55)
  else none

/-- Four hexadecimal digits. -/
def hex4? (a b c d : Char) : Option Nat := do
  return (← hexValue? a) * 4096 + (← hexValue? b) * 256 + (← hexValue? c) * 16 + (← hexValue? d)

/-- The character of a simple escape. -/
def unescape? (c : Char) : Option Char :=
  if c = '"' || c = '\\' || c = '/' then some c
  else if c = 'b' then some '\x08'
  else if c = 'f' then some '\x0c'
  else if c = 'n' then some '\n'
  else if c = 'r' then some '\r'
  else if c = 't' then some '\t'
  else none

/-- The characters of a string up to its closing quote. An escaped pair of surrogates is one
character, and a lone surrogate is refused. -/
def readString : Text → Option (Text × Text)
  | [] => none
  | '"' :: rest => some ([], rest)
  | '\\' :: 'u' :: a :: b :: c :: d :: rest =>
    match hex4? a b c d with
    | none => none
    | some high =>
      if 0xD800 ≤ high && high < 0xDC00 then
        match rest with
        | '\\' :: 'u' :: a :: b :: c :: d :: rest =>
          match hex4? a b c d with
          | none => none
          | some low =>
            if 0xDC00 ≤ low && low < 0xE000 then
              (readString rest).map fun (t, r) =>
                (Char.ofNat (0x10000 + (high - 0xD800) * 0x400 + (low - 0xDC00)) :: t, r)
            else none
        | _ => none
      else if 0xDC00 ≤ high && high < 0xE000 then none
      else (readString rest).map fun (t, r) => (Char.ofNat high :: t, r)
  | '\\' :: c :: rest =>
    match unescape? c with
    | none => none
    | some c => (readString rest).map fun (t, r) => (c :: t, r)
  | c :: rest =>
    if c.toNat < 0x20 then none else (readString rest).map fun (t, r) => (c :: t, r)

/-! ### Values -/

/-- The text after spaces, tabs and line ends. -/
def skipSpace (t : Text) : Text :=
  t.dropWhile fun c => c == ' ' || c == '\t' || c == '\n' || c == '\r'

mutual

/-- A value and the text after it. -/
def readValue : Nat → Text → Option (Json × Text)
  | 0, _ => none
  | fuel + 1, t =>
    match skipSpace t with
    | '"' :: rest => (readString rest).map fun (s, r) => (.str s, r)
    | '[' :: rest =>
      match skipSpace rest with
      | ']' :: rest => some (.arr [], rest)
      | rest => (readItems fuel rest).map fun (items, r) => (.arr items, r)
    | '\x7b' :: rest =>
      match skipSpace rest with
      | '\x7d' :: rest => some (.obj [], rest)
      | rest => (readMembers fuel rest).map fun (ms, r) => (.obj (OrderedMap.ofList ms).entries, r)
    | 'n' :: 'u' :: 'l' :: 'l' :: rest => some (.null, rest)
    | 't' :: 'r' :: 'u' :: 'e' :: rest => some (.bool true, rest)
    | 'f' :: 'a' :: 'l' :: 's' :: 'e' :: rest => some (.bool false, rest)
    | '-' :: rest => readUnsigned true rest
    | rest => readUnsigned false rest

/-- Items with commas between them, up to the closing bracket. -/
def readItems : Nat → Text → Option (List Json × Text)
  | 0, _ => none
  | fuel + 1, t =>
    match readValue fuel t with
    | none => none
    | some (j, rest) =>
      match skipSpace rest with
      | ']' :: rest => some ([j], rest)
      | ',' :: rest => (readItems fuel rest).map fun (js, r) => (j :: js, r)
      | _ => none

/-- Members with commas between them, up to the closing brace. -/
def readMembers : Nat → Text → Option (List (Text × Json) × Text)
  | 0, _ => none
  | fuel + 1, t =>
    match skipSpace t with
    | '"' :: rest =>
      match readString rest with
      | none => none
      | some (key, rest) =>
        match skipSpace rest with
        | ':' :: rest =>
          match readValue fuel rest with
          | none => none
          | some (j, rest) =>
            match skipSpace rest with
            | '\x7d' :: rest => some ([(key, j)], rest)
            | ',' :: rest => (readMembers fuel rest).map fun (ms, r) => ((key, j) :: ms, r)
            | _ => none
        | _ => none
    | _ => none

end

/-- The value of a JSON text. Each nested value takes a character, so the length bounds the
depth. -/
def parse? (t : Text) : Option Json :=
  match readValue (2 * t.length + 2) t with
  | some (j, rest) => if (skipSpace rest).isEmpty then some j else none
  | none => none

end Json

end AutoItServer
