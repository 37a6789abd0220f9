/-! The shortest decimal that reads back as a given binary floating point number: of all decimals
that round to the number the ones with the fewest digits, of those the nearest, and of two that are
equally near the one with an even last digit. -/

namespace Rungs.Decimal

/-- The digits `digits` with the decimal point `point` places after the front of them. -/
structure Digits where
  digits : List Char
  point : Int
deriving DecidableEq, Repr, Inhabited

/-- A positive number and the bounds of what rounds to it, as numerators over one denominator. The
bounds themselves round to it exactly if `closed`. -/
structure Interval where
  low : Nat
  value : Nat
  high : Nat
  denominator : Nat
  closed : Bool
deriving DecidableEq, Repr, Inhabited

namespace Interval

/-- The reals that round to `mantissa * 2 ^ exponent`. Below a power of two the next number is only
half as far away as above it, except at the bottom of the range. -/
def ofBinary (mantissa : Nat) (exponent : Int) (narrowBelow : Bool) : Interval :=
  let scale := exponent - 2
  let up := Nat.pow 2 scale.toNat
  { low := (if narrowBelow then 4 * mantissa - 1 else 4 * mantissa - 2) * up
    value := 4 * mantissa * up
    high := (4 * mantissa + 2) * up
    denominator := Nat.pow 2 (-scale).toNat
    closed := mantissa % 2 == 0 }

/-- Whether `n * 10 ^ power` rounds to the number. -/
def contains (i : Interval) (n : Nat) (power : Int) : Bool :=
  let point := n * Nat.pow 10 power.toNat * i.denominator
  let unit := Nat.pow 10 (-power).toNat
  if i.closed then i.low * unit ≤ point && point ≤ i.high * unit
  else i.low * unit < point && point < i.high * unit

/-- The whole part of the number divided by `10 ^ power`, and how the rest compares to one half. -/
def grid (i : Interval) (power : Int) : Nat × Ordering :=
  let numerator := i.value * Nat.pow 10 (-power).toNat
  let denominator := i.denominator * Nat.pow 10 power.toNat
  (numerator / denominator, compare (2 * (numerator % denominator)) denominator)

/-- The place of the first digit before the point, or of the last zero after it. -/
def leading (i : Interval) : Nat → Int
  | 0 => 0
  | fuel + 1 =>
    if i.denominator ≤ i.value then (Nat.toDigits 10 (i.value / i.denominator)).length
    else leading { i with value := i.value * 10 } fuel - 1

/-- The neighbour of the number on the decimal grid that lies in the interval, the nearer of two. A
tie goes to the even one. -/
def neighbour? (i : Interval) (power : Int) : Option Nat :=
  let (below, rest) := i.grid power
  let upward := rest == .gt || (rest == .eq && below % 2 == 1)
  match i.contains below power, i.contains (below + 1) power with
  | true, true => some (if upward then below + 1 else below)
  | true, false => some below
  | false, true => some (below + 1)
  | false, false => none

/-- Tries one digit more each time. -/
def search (i : Interval) (point : Int) (length : Nat) : Nat → Digits
  | 0 => ⟨['0'], 1⟩
  | fuel + 1 =>
    let power := point - length
    match i.neighbour? power with
    | some n =>
      let digits := Nat.toDigits 10 n
      ⟨(digits.reverse.dropWhile (· == '0')).reverse, digits.length + power⟩
    | none => search i point (length + 1) fuel

end Interval

/-- The bits below those of the exponent, as a count of the values they take. -/
def fractions : Nat := 0x10000000000000

/-- The shortest digits of a finite positive number, from its bits without the sign. -/
def shortest (bits : Nat) : Digits :=
  let field := bits / fractions
  let fraction := bits % fractions
  let mantissa := if field = 0 then fraction else fractions + fraction
  let exponent := Int.ofNat (if field = 0 then 1 else field) - 1075
  let interval := Interval.ofBinary mantissa exponent (fraction == 0 && 1 < field)
  interval.search (interval.leading 400) 1 17

end Rungs.Decimal
