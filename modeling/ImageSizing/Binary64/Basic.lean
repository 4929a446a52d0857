/-!
# Double-precision numbers

A finite double is a sign and a magnitude counted in units of 2⁻¹⁰⁷⁴, the smallest
positive double, so every finite double is an exact whole number of units.  Which counts a
double can hold is the predicate `Representable`: at most 53 significant binary digits, and
below 2¹⁰²⁴.  An operation is computed exactly on unit counts and rounded once
(`Binary64.Rounding`).

    Representable m ↔ m < unitsLimit ∧ 2 ^ (m.log2 - 52) ∣ m
-/

namespace ImageSizing

/-- The first unit count beyond the finite doubles, that of 2¹⁰²⁴. -/
@[irreducible] def unitsLimit : Nat := Nat.pow 2 2098

/-- A count of units that fits in 53 significant binary digits and lies below 2¹⁰²⁴. -/
def Representable (units : Nat) : Prop :=
  units < unitsLimit ∧ Nat.pow 2 (units.log2 - 52) ∣ units

instance (units : Nat) : Decidable (Representable units) :=
  inferInstanceAs (Decidable (_ ∧ _))

/-- A double: not a number, an infinity, or a signed count of units of 2⁻¹⁰⁷⁴. -/
inductive Binary64 where
  | nan
  | infinite (negative : Bool)
  | finite (negative : Bool) (units : Nat) (fits : Representable units)
deriving DecidableEq

namespace Binary64

@[irreducible] def unitsPerOne : Nat := Nat.pow 2 1074

theorem unitsLimit_pos : 0 < unitsLimit := by decide +kernel

theorem representable_zero : Representable 0 := ⟨unitsLimit_pos, Nat.dvd_zero _⟩

/-- Zero of either sign. -/
def zero (negative : Bool) : Binary64 := .finite negative 0 representable_zero

instance : Inhabited Binary64 := ⟨zero false⟩

/-- Neither an infinity nor `nan`. -/
def isFinite : Binary64 → Bool
  | .finite .. => true
  | _ => false

/-- A finite double without a fractional part. -/
def isWhole : Binary64 → Bool
  | .finite _ u _ => u % unitsPerOne == 0
  | _ => false

def isZero : Binary64 → Bool
  | .finite _ u _ => u == 0
  | _ => false

/-- The signed unit count of a finite double. -/
def signedUnits? : Binary64 → Option Int
  | .finite negative u _ => some (if negative then -(u : Int) else u)
  | _ => none

/-- The greatest integer not above a finite double. -/
def floor? (x : Binary64) : Option Int :=
  x.signedUnits?.map (· / (unitsPerOne : Int))

/-- A finite double without its fractional part. -/
def truncate? (x : Binary64) : Option Int :=
  x.signedUnits?.map (·.tdiv (unitsPerOne : Int))

/-! ## Order -/

/-- Strictly below; false as soon as one side is `nan`. -/
def lt : Binary64 → Binary64 → Bool
  | .nan, _ => false
  | _, .nan => false
  | .infinite s, .infinite t => s && !t
  | .infinite s, .finite .. => s
  | .finite .., .infinite t => !t
  | .finite s u _, .finite t v _ =>
    decide ((if s then -(u : Int) else u) < (if t then -(v : Int) else v))

/-- Equal as numbers: both zeros are equal, and `nan` equals nothing. -/
def numericEq : Binary64 → Binary64 → Bool
  | .nan, _ => false
  | _, .nan => false
  | .infinite s, .infinite t => s == t
  | .finite s u _, .finite t v _ =>
    decide ((if s then -(u : Int) else u) = (if t then -(v : Int) else v))
  | _, _ => false

/-- Comparison with an integer, taken exactly. -/
def ltInt : Binary64 → Int → Bool
  | .nan, _ => false
  | .infinite s, _ => s
  | .finite s u _, n => decide ((if s then -(u : Int) else u) < n * unitsPerOne)

/-- Comparison of an integer with a double, taken exactly. -/
def intLt : Int → Binary64 → Bool
  | _, .nan => false
  | _, .infinite s => !s
  | n, .finite s u _ => decide (n * unitsPerOne < (if s then -(u : Int) else u))

/-- Equality with an integer, taken exactly. -/
def eqInt : Binary64 → Int → Bool
  | .finite s u _, n => decide ((if s then -(u : Int) else u) = n * unitsPerOne)
  | _, _ => false

end Binary64

end ImageSizing
