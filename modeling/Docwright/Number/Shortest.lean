import Docwright.Number.Binary64

/-!
# Shortest decimals

The decimal text of a binary number has the fewest digits that read back as the
same number. The reals that round to `mantissa * 2 ^ exponent` form an interval,
closed if the mantissa is even. For one digit, two digits and so on, the two
multiples of the power of ten next to the number are tried; the first that lies
in the interval is taken, and of two the nearer one.

The digits are written positionally as long as the point stands at most sixteen
digits to the right of the first digit or three to the left of it, otherwise
with an exponent of at least two digits.
-/

namespace Docwright.Binary64

/-- The decimal `digits * 10 ^ exponent`. -/
structure Decimal where
  digits : Nat
  exponent : Int
  deriving DecidableEq, Repr

def digitCount (n : Nat) : Nat := (Nat.toDigits 10 n).length

/-- The number of digits of `n / d` before the point; for a quotient below one,
minus the number of zeros after the point. -/
def pointOf (n d : Nat) : Int :=
  if d ≤ n then digitCount (n / d)
  else
    let count := digitCount (d / n)
    if d ≤ n * Nat.pow 10 (count - 1) then 2 - (count : Int) else 1 - (count : Int)

/-- The interval of the reals that round to a number, over a common
denominator. -/
structure Interval where
  low : Nat
  value : Nat
  high : Nat
  denominator : Nat
  closed : Bool

/-- The reals that round to `mantissa * 2 ^ exponent`. Below a power of two the
neighbour is only half as far away. -/
def interval (mantissa : Nat) (exponent : Int) : Interval :=
  let narrow := mantissa = Nat.pow 2 52 ∧ -1074 < exponent
  let (scale, denominator) :=
    if 0 ≤ exponent then (Nat.pow 2 exponent.toNat, 4) else (1, 4 * Nat.pow 2 (-exponent).toNat)
  { low := (4 * mantissa - if narrow then 1 else 2) * scale
    value := 4 * mantissa * scale
    high := (4 * mantissa + 2) * scale
    denominator := denominator
    closed := mantissa % 2 == 0 }

/-- Numerator and denominator on which `digits * 10 ^ exponent` and the interval
are compared: the decimal is `fst`, one unit of the interval is `snd`. -/
def common (i : Interval) (decimal : Decimal) : Nat × Nat :=
  if 0 ≤ decimal.exponent then
    (decimal.digits * Nat.pow 10 decimal.exponent.toNat * i.denominator, 1)
  else (decimal.digits * i.denominator, Nat.pow 10 (-decimal.exponent).toNat)

def Interval.holds (i : Interval) (decimal : Decimal) : Bool :=
  let (d, unit) := common i decimal
  if i.closed then Nat.ble (i.low * unit) d && Nat.ble d (i.high * unit)
  else Nat.blt (i.low * unit) d && Nat.blt d (i.high * unit)

/-- The multiple of `10 ^ exponent` in the interval next to the number. -/
def Interval.neighbour? (i : Interval) (exponent : Int) : Option Decimal :=
  let below : Nat :=
    if 0 ≤ exponent then i.value / (i.denominator * Nat.pow 10 exponent.toNat)
    else i.value * Nat.pow 10 (-exponent).toNat / i.denominator
  let lower : Decimal := ⟨below, exponent⟩
  let upper : Decimal := ⟨below + 1, exponent⟩
  match i.holds lower, i.holds upper with
  | false, false => none
  | true, false => some lower
  | false, true => some upper
  | true, true =>
      let (l, unit) := common i lower
      let (u, _) := common i upper
      let down := i.value * unit - l
      let up := u - i.value * unit
      if down < up ∨ (down = up ∧ below % 2 = 0) then some lower else some upper

/-- The first of the decimals with `count`, `count + 1`, … digits in the
interval, when the point stands at `point`. -/
def firstNeighbour (i : Interval) (point : Int) : Nat → Nat → Decimal
  | 0, _ => ⟨0, 0⟩
  | fuel + 1, count =>
      match i.neighbour? (point - count) with
      | some decimal => decimal
      | none => firstNeighbour i point fuel (count + 1)

/-- The shortest decimal of a positive number. Seventeen digits always
suffice. -/
def shortest (mantissa : Nat) (exponent : Int) : Decimal :=
  let i := interval mantissa exponent
  firstNeighbour i (pointOf i.value i.denominator) 17 1

/-- The digits of an exponent, with its sign and at least two digits. -/
def exponentText (e : Int) : String :=
  let digits := toString e.natAbs
  (if e < 0 then "-" else "+") ++ (if digits.length < 2 then "0" ++ digits else digits)

def zeros (n : Nat) : List Char := List.replicate n '0'

def Decimal.text (decimal : Decimal) : String :=
  let all := Nat.toDigits 10 decimal.digits
  let point : Int := all.length + decimal.exponent
  let digits := (all.reverse.dropWhile (· == '0')).reverse
  if -4 < point ∧ point ≤ 16 then
    if point ≤ 0 then
      String.ofList ('0' :: '.' :: (zeros (-point).toNat ++ digits))
    else if digits.length ≤ point.toNat then
      String.ofList (digits ++ zeros (point.toNat - digits.length) ++ ['.', '0'])
    else
      String.ofList (digits.take point.toNat ++ '.' :: digits.drop point.toNat)
  else
    let lead :=
      match digits with
      | d :: e :: rest => d :: '.' :: e :: rest
      | short => short
    String.ofList lead ++ "e" ++ exponentText (point - 1)

def text : Binary64 → String
  | .nan => "nan"
  | .infinite negative => if negative then "-inf" else "inf"
  | .finite negative mantissa exponent =>
      (if negative then "-" else "") ++
        (if mantissa = 0 then "0.0" else (shortest mantissa exponent).text)

end Docwright.Binary64
