/-!
# Decimal numerals

Runs of the ten ASCII digits and the natural numbers they write.  `readDigits` takes any
run, leading zeros included; `digitsOf` writes without them.  Conversions between whole
numbers and text stop at `digitLimit` digits: a longer number is neither printed nor read.
-/

namespace ImageSizing.Numeral

/-- The largest number of digits that a conversion between a whole number and text accepts. -/
def digitLimit : Nat := 4300

/-- The number written by a run of digits. -/
def readDigits (cs : List Char) : Nat :=
  cs.foldl (fun n c => 10 * n + (c.toNat - '0'.toNat)) 0

/-- The digits of a natural number, without leading zeros. -/
def digitsOf (n : Nat) : List Char := Nat.toDigits 10 n

/-- The digits of `n`, with zeros in front up to `width`. -/
def paddedDigits (width n : Nat) : List Char :=
  List.replicate (width - (digitsOf n).length) '0' ++ digitsOf n

/-- Whether an integer is short enough to be printed. -/
def printable (n : Int) : Bool := n.natAbs < Nat.pow 10 digitLimit

def text (n : Int) : String :=
  String.ofList (if n < 0 then '-' :: digitsOf n.natAbs else digitsOf n.natAbs)

end ImageSizing.Numeral
