import ImageSizing.Binary64.Decimal

/-!
# Numbers

A number is an integer of any size or a double.  Products of two integers are exact; every
other operation goes through doubles.  The quotient of two integers is rounded once, from
the exact ratio.  Comparisons between the two kinds are exact.
-/

namespace ImageSizing

/-- An integer of any size or a double. -/
inductive Number where
  | int (n : Int)
  | float (x : Binary64)
deriving DecidableEq, Inhabited

/-- Why an operation on numbers has no result. -/
inductive ArithmeticFault where
  | divisionByZero
  | floatDivisionByZero
  | integerTooLarge
  | quotientTooLarge
  | integerOfInfinity
  | integerOfNaN
deriving DecidableEq

namespace ArithmeticFault

def message : ArithmeticFault → String
  | divisionByZero => "division by zero"
  | floatDivisionByZero => "float division by zero"
  | integerTooLarge => "int too large to convert to float"
  | quotientTooLarge => "integer division result too large for a float"
  | integerOfInfinity => "cannot convert float infinity to integer"
  | integerOfNaN => "cannot convert float NaN to integer"

end ArithmeticFault

namespace Number

/-- A double that has to be finite. -/
def finiteOr (fault : ArithmeticFault) : Binary64 → Except ArithmeticFault Binary64
  | .finite s u h => .ok (.finite s u h)
  | _ => .error fault

/-- The nearest double; an integer beyond the doubles has none. -/
def toBinary64 : Number → Except ArithmeticFault Binary64
  | .float x => .ok x
  | .int n => finiteOr .integerTooLarge (Binary64.ofInt n)

/-- Whether the nearest double exists and is finite. -/
def isFinite (v : Number) : Bool :=
  match v.toBinary64 with
  | .ok x => x.isFinite
  | .error _ => false

/-- Strictly below, exactly. -/
def lt : Number → Number → Bool
  | .int m, .int n => decide (m < n)
  | .int m, .float y => Binary64.intLt m y
  | .float x, .int n => Binary64.ltInt x n
  | .float x, .float y => Binary64.lt x y

/-- Equal as numbers, exactly. -/
def numericEq : Number → Number → Bool
  | .int m, .int n => decide (m = n)
  | .int m, .float y => Binary64.eqInt y m
  | .float x, .int n => Binary64.eqInt x n
  | .float x, .float y => Binary64.numericEq x y

/-- Zero or below zero; `nan` is neither. -/
def isNonpositive (v : Number) : Bool := v.lt (.int 0) || v.numericEq (.int 0)

/-- Zero of either kind and sign. -/
def isZero (v : Number) : Bool := v.numericEq (.int 0)

/-- The product, exact for two integers. -/
def mul : Number → Number → Except ArithmeticFault Number
  | .int m, .int n => .ok (.int (m * n))
  | a, b => do return .float (Binary64.mul (← a.toBinary64) (← b.toBinary64))

/-- The sum, exact for two integers. -/
def add : Number → Number → Except ArithmeticFault Number
  | .int m, .int n => .ok (.int (m + n))
  | a, b => do return .float (Binary64.add (← a.toBinary64) (← b.toBinary64))

/-- The quotient as a double; that of two integers is rounded once from the exact ratio. -/
def div : Number → Number → Except ArithmeticFault Binary64
  | .int m, .int n =>
    if n = 0 then .error .divisionByZero
    else finiteOr .quotientTooLarge
      (Binary64.ofRatio (decide (m < 0) != decide (n < 0)) m.natAbs n.natAbs)
  | a, b => do
    let x ← a.toBinary64
    let y ← b.toBinary64
    if y.isZero then .error .floatDivisionByZero else .ok (Binary64.div x y)

/-- The smaller of two numbers; the first unless the second is strictly below it. -/
def min (a b : Number) : Number := if b.lt a then b else a

/-- The larger of two numbers; the first unless it is strictly below the second. -/
def max (a b : Number) : Number := if a.lt b then b else a

/-- The greatest integer not above a double. -/
def floor (x : Binary64) : Except ArithmeticFault Int :=
  match x.floor? with
  | some n => .ok n
  | none => .error (if x = .nan then .integerOfNaN else .integerOfInfinity)

/-- A double without its fractional part. -/
def truncate (x : Binary64) : Except ArithmeticFault Int :=
  match x.truncate? with
  | some n => .ok n
  | none => .error (if x = .nan then .integerOfNaN else .integerOfInfinity)

/-- Whole pixels: half a pixel is added in double precision and the rest cut off. -/
def roundHalfUp (v : Number) : Except ArithmeticFault Int := do
  floor (Binary64.add (← v.toBinary64) Binary64.half)

def text : Number → String
  | .int n => Numeral.text n
  | .float x => x.text

/-- Whether the number is short enough to be printed. -/
def printable : Number → Bool
  | .int n => Numeral.printable n
  | .float _ => true

end Number

end ImageSizing
