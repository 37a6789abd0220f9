import Rungs.Decimal.Shortest

/-! Numbers of a JSON text: their grammar, what they denote, and how one that is not whole is shown
in a message. Whole numbers are exact as long as 64 bits hold them; all others are binary floating
point. -/

namespace Rungs.Json

/-- Why a text is no document: it cannot be continued to one, or it only ends too early. -/
inductive Fault where
  | malformed
  | truncated
deriving DecidableEq, Repr, Inhabited

/-- Digits of a number as they stand in the text, all but the first of them possibly missing. -/
structure Lexeme where
  negative : Bool
  whole : List Char
  /-- Digits after a point. -/
  fraction : Option (List Char)
  /-- Whether the exponent is negative, and its digits. -/
  exponent : Option (Bool × List Char)
deriving DecidableEq, Repr, Inhabited

def splitDigits (cs : List Char) : List Char × List Char :=
  (cs.takeWhile Char.isDigit, cs.dropWhile Char.isDigit)

/-- One or more digits. -/
def someDigits (cs : List Char) : Except Fault (List Char × List Char) :=
  match splitDigits cs with
  | ([], []) => .error .truncated
  | ([], _) => .error .malformed
  | result => .ok result

namespace Lexeme

/-- A whole number: a single zero, or digits that do not start with one. -/
def scanWhole (cs : List Char) : Except Fault (List Char × List Char) :=
  match someDigits cs with
  | .ok ('0' :: _ :: _, _) => .error .malformed
  | result => result

def scanFraction (cs : List Char) : Except Fault (Option (List Char) × List Char) :=
  match cs with
  | '.' :: cs => (someDigits cs).map fun (digits, cs) => (some digits, cs)
  | _ => .ok (none, cs)

def scanExponent (cs : List Char) : Except Fault (Option (Bool × List Char) × List Char) :=
  match cs with
  | c :: cs' =>
    if c = 'e' ∨ c = 'E' then
      let (negative, rest) :=
        match cs' with
        | '+' :: rest => (false, rest)
        | '-' :: rest => (true, rest)
        | rest => (false, rest)
      (someDigits rest).map fun (digits, rest) => (some (negative, digits), rest)
    else .ok (none, cs)
  | [] => .ok (none, cs)

/-- The number at the front of a text. -/
def scan (cs : List Char) : Except Fault (Lexeme × List Char) := do
  let (negative, cs) := match cs with
    | '-' :: cs => (true, cs)
    | cs => (false, cs)
  let (whole, cs) ← scanWhole cs
  let (fraction, cs) ← scanFraction cs
  let (exponent, cs) ← scanExponent cs
  return (⟨negative, whole, fraction, exponent⟩, cs)

end Lexeme

inductive Numeral where
  | int (value : Int)
  | float (value : Float)
deriving Repr, Inhabited

/-- Appends digits to a number for as long as it stays within 64 bits. The second part counts the
digits taken, the third those left over. -/
def absorb (limit : Nat) : Nat → List Char → Nat × Nat × Nat
  | n, [] => (n, 0, 0)
  | n, c :: cs =>
    let next := n * 10 + (c.toNat - '0'.toNat)
    if limit < next then (n, 0, cs.length + 1)
    else
      let (last, taken, left) := absorb limit next cs
      (last, taken + 1, left)

def word64Max : Nat := UInt64.size - 1

/-- The value of the highest of 64 bits. -/
def signBit : Nat := 0x8000000000000000

def int32Max : Int := Int32.maxValue.toInt

def int32Min : Int := Int32.minValue.toInt

/-- `value * 10 ^ exponent` in floating point, in steps that its powers of ten allow. A result
beyond the largest number has none. -/
def scaled : Nat → Float → Int → Option Float
  | 0, value, _ => some value
  | fuel + 1, value, exponent =>
    if exponent.natAbs ≤ 308 then
      let power := Float.ofScientific 1 false exponent.natAbs
      if 0 ≤ exponent then
        let product := value * power
        if product.isInf then none else some product
      else some (value / power)
    else if value == 0.0 then some value
    else if 0 ≤ exponent then none
    else scaled fuel (value / Float.ofScientific 1 false 308) (exponent + 308)

namespace Lexeme

/-- The exponent that is written, if 32 bits hold it. -/
def writtenExponent (l : Lexeme) : Option Int :=
  match l.exponent with
  | none => some 0
  | some (negative, digits) =>
    let n := Nat.ofDigitChars 10 digits 0
    if int32Max < n then none else some (if negative then -(n : Int) else n)

/-- The floating point value: the leading digits that 64 bits hold, scaled by the exponent and the
number of digits left out. A number that is out of range has none. -/
def float? (l : Lexeme) : Option Float :=
  let (significand, _, left) := absorb word64Max 0 l.whole
  let (significand, taken, _) := absorb word64Max significand (l.fraction.getD [])
  let magnitude :=
    match l.writtenExponent with
    | some exponent =>
      let total := (left : Int) - taken + exponent
      let bounded := max int32Min (min int32Max total)
      scaled 4 (UInt64.ofNat significand).toFloat bounded
    | none =>
      let growing := match l.exponent with
        | some (negative, _) => !negative
        | none => false
      if significand != 0 && growing then none else some 0.0
  magnitude.map fun m => if l.negative then -m else m

/-- The whole number, unless the text has a point or an exponent, or is a negative zero, or does not
fit in 64 bits. -/
def int? (l : Lexeme) : Option Int :=
  let n := Nat.ofDigitChars 10 l.whole 0
  if l.fraction.isSome || l.exponent.isSome then none
  else if l.negative then
    if n = 0 ∨ signBit < n then none else some (-(n : Int))
  else if word64Max < n then none else some n

def numeral (l : Lexeme) : Except Fault Numeral :=
  match l.int?, l.float? with
  | some n, _ => .ok (.int n)
  | none, some x => .ok (.float x)
  | none, none => .error .malformed

end Lexeme

/-- How floating point numbers are shown: which places of the point are written out. -/
structure FloatFormat where
  /-- Places of the point, counted from the front of the digits, that need no exponent. -/
  leastPoint : Int
  greatestPoint : Int

/-- Numbers from 1e-5 up to 1e16 are written out and always have a point. -/
def messageFormat : FloatFormat := ⟨-4, 16⟩

def zeros (n : Nat) : List Char := List.replicate n '0'

/-- The digits with the point at its place. -/
def positional (d : Decimal.Digits) : List Char :=
  let length := d.digits.length
  if d.point ≤ 0 then '0' :: '.' :: zeros (-d.point).toNat ++ d.digits
  else if d.point.toNat < length then
    d.digits.take d.point.toNat ++ '.' :: d.digits.drop d.point.toNat
  else d.digits ++ zeros (d.point.toNat - length) ++ ['.', '0']

/-- The digits with the point after the first one, and the exponent that makes up for it, always
with its sign. -/
def scientific (d : Decimal.Digits) : List Char :=
  let exponent := d.point - 1
  let mantissa := match d.digits with
    | first :: second :: rest => first :: '.' :: second :: rest
    | short => short
  mantissa ++ ['e', if exponent < 0 then '-' else '+'] ++ Nat.toDigits 10 exponent.natAbs

/-- The text of a finite number. -/
def FloatFormat.render (f : FloatFormat) (x : Float) : String :=
  let bits := x.toBits.toNat
  let negative := signBit ≤ bits
  let magnitude := bits % signBit
  let body :=
    if magnitude = 0 then ['0', '.', '0']
    else
      let d := Decimal.shortest magnitude
      if f.leastPoint ≤ d.point ∧ d.point ≤ f.greatestPoint then positional d
      else scientific d
  String.ofList (if negative then '-' :: body else body)

end Rungs.Json
