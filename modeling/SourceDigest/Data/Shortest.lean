/-
The shortest decimal number that reads back as a given floating-point
number.

A positive finite number is `m * 2 ^ q`. The real numbers that are rounded
to it form an interval around it, which has its ends when `m` is even. On
the grid of numbers with one digit, then two, and so on, only the two
neighbours of the number itself need to be tried: if any point of a grid
lies in the interval, so does one of these. The first grid with a hit
wins, of two hits the nearer, and of two equally near the even one.
-/
import SourceDigest.Text.Basic

namespace SourceDigest

/-- The number `digits * 10 ^ exponent`. -/
structure Decimal where
  digits : Nat
  exponent : Int
deriving DecidableEq, Repr

namespace Decimal

/-- The same number without zeros at the end of its digits; `fuel` bounds
how many are taken off. -/
def trimmed : (fuel : Nat) → Decimal → Decimal
  | 0, d => d
  | fuel + 1, d =>
    if d.digits ≠ 0 ∧ d.digits % 10 = 0 then trimmed fuel ⟨d.digits / 10, d.exponent + 1⟩ else d

end Decimal

namespace Shortest

/-- A positive number and the ends of the interval that is rounded to it,
over one denominator. -/
structure Interval where
  low : Nat
  value : Nat
  high : Nat
  denominator : Nat
  /-- Whether the ends belong to it. -/
  closed : Bool
deriving DecidableEq, Repr

/-- The interval of a positive number from its fraction bits and its
exponent bits. Below a power of two the numbers lie twice as dense. -/
def interval (fraction exponent : Nat) : Interval :=
  let m := if exponent = 0 then fraction else fraction + (1 <<< 52)
  let q : Int := max exponent 1 - 1077
  let up := 1 <<< q.toNat
  let gap := if fraction = 0 ∧ exponent > 1 then 1 else 2
  { low := (4 * m - gap) * up
    value := 4 * m * up
    high := (4 * m + 2) * up
    denominator := 1 <<< (-q).toNat
    closed := m % 2 = 0 }

/-- `n * 10 ^ e`, as a fraction with the denominator `10 ^ (-e)`. -/
def scaled (n : Nat) (e : Int) : Nat × Nat := (n * Nat.pow 10 e.toNat, Nat.pow 10 (-e).toNat)

/-- Whether a decimal number lies in an interval. -/
def Interval.holds (v : Interval) (d : Decimal) : Bool :=
  let (top, bottom) := scaled d.digits d.exponent
  let here := top * v.denominator
  let low := v.low * bottom
  let high := v.high * bottom
  if v.closed then low ≤ here && here ≤ high else low < here && here < high

/-- How far two numbers are apart. -/
def apart (a b : Nat) : Nat := max a b - min a b

/-- How far a decimal number is from the value, in a unit that depends on
its exponent only. -/
def Interval.distance (v : Interval) (d : Decimal) : Nat :=
  let (top, bottom) := scaled d.digits d.exponent
  apart (top * v.denominator) (v.value * bottom)

/-- The exponent of the first digit of a value. -/
def leading (v : Interval) : Int :=
  let whole := v.value / v.denominator
  if whole ≠ 0 then (Nat.toDigits 10 whole).length - 1
  else
    match (List.range 400).find? fun j => v.denominator ≤ v.value * Nat.pow 10 j with
    | some zeros => -zeros
    | none => 0

/-- The hit on the grid of numbers with so many digits, if there is one. -/
def hit? (v : Interval) (count : Nat) : Option Decimal :=
  let exponent := leading v - count + 1
  let (unit, parts) := scaled 1 exponent
  let below : Decimal := ⟨v.value * parts / (v.denominator * unit), exponent⟩
  let above : Decimal := ⟨below.digits + 1, exponent⟩
  match v.holds below, v.holds above with
  | true, true =>
    let b := v.distance below
    let a := v.distance above
    if b < a ∨ (b = a ∧ below.digits % 2 = 0) then some below else some above
  | true, false => some below
  | false, true => some above
  | false, false => none

end Shortest

/-- The shortest decimal number that reads back as the positive finite number
with some bits; seventeen digits always suffice. -/
def Decimal.ofBits (bits : Nat) : Decimal :=
  let v := Shortest.interval (bits % (1 <<< 52)) ((bits >>> 52) % (1 <<< 11))
  ((((List.range 17).map (· + 1)).findSome? (Shortest.hit? v)).getD ⟨0, 0⟩).trimmed 18

end SourceDigest
