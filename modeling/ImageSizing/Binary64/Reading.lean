import ImageSizing.Binary64.Decimal
import ImageSizing.Text.LooseNumeral

/-!
# Reading doubles

`ofText?` reads the decimal text of a double: digits with an optional point and exponent, or
the names of an infinity and of `nan` in any case, with the liberties of loose numerals.  It
gives the nearest double, an infinity beyond the finite ones.
-/

namespace ImageSizing.Binary64

open Numeral

/-- The double nearest to `digits × 10 ^ exponent`, an infinity or zero at once where the
exponent is far out. -/
def ofScientific (negative : Bool) (digits : Nat) (exponent : Int) : Binary64 :=
  let point := ((digitsOf digits).length : Int) + exponent
  if digits = 0 ∨ point < -400 then .zero negative
  else if 400 < point then .infinite negative
  else ofDecimal negative digits exponent

/-- The integer written by an optional sign and digits. -/
def readExponent? (cs : List Char) : Option Int :=
  let (negative, ds) := Text.takeSign cs
  if !ds.isEmpty && ds.all Char.isDigit then
    some (if negative then -(readDigits ds : Int) else readDigits ds)
  else none

/-- The double nearest to the number written by digits with an optional fraction and an
optional exponent. -/
def readDecimal? (negative : Bool) (cs : List Char) : Option Binary64 :=
  let whole := cs.takeWhile Char.isDigit
  let (part, rest) :=
    match cs.dropWhile Char.isDigit with
    | '.' :: r => (r.takeWhile Char.isDigit, r.dropWhile Char.isDigit)
    | r => ([], r)
  if whole.isEmpty && part.isEmpty then none
  else
    let shift := -(part.length : Int)
    match rest with
    | [] => some (ofScientific negative (readDigits (whole ++ part)) shift)
    | e :: cs =>
      if e.toLower = 'e' then
        (readExponent? cs).map fun k => ofScientific negative (readDigits (whole ++ part)) (k + shift)
      else none

/-- Reads a text without blanks and underscores. -/
def readPlain? (cs : List Char) : Option Binary64 :=
  let (negative, body) := Text.takeSign cs
  let name := String.ofList (body.map Char.toLower)
  if name = "nan" then some .nan
  else if name = "inf" || name = "infinity" then some (.infinite negative)
  else readDecimal? negative body

def ofText? (s : String) : Option Binary64 :=
  (Text.ungroup? ' ' (Text.trimNumeral s)).bind readPlain?

end ImageSizing.Binary64
