import ImageSizing.Binary64.Rounding
import ImageSizing.Text.Numeral

/-!
# Decimal digits of a double

A positive double as decimal digits with a decimal point.  `shortest` gives the fewest
digits that read back to the same double, and of several such numerals the nearest;
`significant` rounds to a given number of digits, a tie going to the even digit.  In both
the digits carry no trailing zero, and the value is `0.d₁d₂d₃… × 10 ^ point`.
-/

namespace ImageSizing.Binary64

open Numeral

/-- The double nearest to `digits × 10 ^ exponent`. -/
def ofDecimal (negative : Bool) (digits : Nat) (exponent : Int) : Binary64 :=
  ofRatio negative (digits * Nat.pow 10 exponent.toNat) (Nat.pow 10 (-exponent).toNat)

/-- Decimal digits and the place of the decimal point among them. -/
structure Decimal where
  digits : List Char
  point : Int

namespace Decimal

/-- Zero is written with a single digit. -/
def zero : Decimal := ⟨['0'], 1⟩

/-- Drops the zeros at the end of a run of digits. -/
def dropTrailingZeros (cs : List Char) : List Char :=
  (cs.reverse.dropWhile (· == '0')).reverse

/-- The numeral of a multiple of `10 ^ (point - count)`; a carry into one digit more than
`count` moves the point. -/
def ofGrid (count : Nat) (point : Int) (multiple : Nat) : Decimal :=
  ⟨dropTrailingZeros (digitsOf multiple), point + ((digitsOf multiple).length - count)⟩

end Decimal

/-- The place of the decimal point of a positive magnitude: the number of digits before it,
negative when zeros follow it. -/
def pointOf (units : Nat) : Int :=
  ((digitsOf (units * Nat.pow 10 330 / unitsPerOne)).length : Int) - 330

/-- A magnitude as a quotient in multiples of `10 ^ (point - count)`. -/
def onGrid (units count : Nat) (point : Int) : Nat × Nat :=
  (units * Nat.pow 10 ((count : Int) - point).toNat, unitsPerOne * Nat.pow 10 (point - count).toNat)

/-- Of the two numerals with `count` digits around a magnitude the nearer that reads back. -/
def nearestOnGrid (x : Binary64) (units : Nat) (point : Int) (count : Nat) : Option Nat :=
  let (n, d) := onGrid units count point
  let below := n / d
  let readsBack := fun c => decide (ofDecimal false c (point - count) = x)
  match readsBack below, readsBack (below + 1) with
  | true, true => some (roundQuotient n d)
  | true, false => some below
  | false, true => some (below + 1)
  | false, false => none

/-- A number of digits that every double has at most; the greatest one needed is 767. -/
def digitBound : Nat := 800

/-- A magnitude rounded to `count` digits, at least one.  Digits beyond `digitBound` would be
zeros, and those at the end are dropped. -/
def significant (units count : Nat) : Decimal :=
  if units = 0 then .zero
  else
    let kept := Nat.min count digitBound
    let point := pointOf units
    let (n, d) := onGrid units kept point
    .ofGrid kept point (roundQuotient n d)

/-- The fewest digits that read back: the numeral on the first grid that has one.  Seventeen
digits always read back. -/
def shortest (units : Nat) : Decimal :=
  if h : Representable units ∧ units ≠ 0 then
    let point := pointOf units
    ((List.range 17).findSome? fun i =>
      (nearestOnGrid (.finite false units h.1) units point (i + 1)).map
        (Decimal.ofGrid (i + 1) point)).getD (significant units 17)
  else .zero

/-- The number of digits after the point from which on those of every double are zeros. -/
def placeBound : Nat := 1074

/-- The digits before and after the decimal point of a magnitude rounded to `places`
digits after it. -/
def fixedParts (units places : Nat) : List Char × List Char :=
  let kept := Nat.min places placeBound
  let ds := paddedDigits (kept + 1) (roundQuotient (units * Nat.pow 10 kept) unitsPerOne)
  (ds.take (ds.length - kept),
    ds.drop (ds.length - kept) ++ List.replicate (places - kept) '0')

/-! ## Layout -/

namespace Decimal

/-- The digits before and after the point in positional notation. -/
def positional (d : Decimal) : List Char × List Char :=
  if d.point ≤ 0 then (['0'], List.replicate (-d.point).toNat '0' ++ d.digits)
  else
    (d.digits.take d.point.toNat ++ List.replicate (d.point.toNat - d.digits.length) '0',
      d.digits.drop d.point.toNat)

/-- The decimal exponent of the first digit. -/
def exponent (d : Decimal) : Int := d.point - 1

/-- An exponent with its sign and at least two digits. -/
def exponentText (e : Int) : List Char :=
  (if e < 0 then '-' else '+') :: paddedDigits 2 e.natAbs

end Decimal

/-- The text of a double: the fewest digits that read back, positional from 10⁻⁴ up to
10¹⁶ with at least one digit after the point, with an exponent outside that range. -/
def text : Binary64 → String
  | .nan => "nan"
  | .infinite negative => if negative then "-inf" else "inf"
  | .finite negative units _ =>
    let d := shortest units
    let body :=
      if -4 < d.point ∧ d.point ≤ 16 then
        let (whole, part) := d.positional
        whole ++ '.' :: (if part.isEmpty then ['0'] else part)
      else
        d.digits.take 1 ++ (if d.digits.length ≤ 1 then [] else '.' :: d.digits.drop 1)
          ++ 'e' :: Decimal.exponentText d.exponent
    String.ofList (if negative then '-' :: body else body)

end ImageSizing.Binary64
