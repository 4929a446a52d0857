/-!
# Units

What the value of one axis of a wanted size counts.  Pixels and factors are concrete; an
axis may also be left out or be unreadable.
-/

namespace ImageSizing

/-- What the value of one axis counts. -/
inductive AxisUnit where
  | pixel
  | factor
  | unspecified
  | invalid
deriving DecidableEq, Inhabited

namespace AxisUnit

/-- All units, in the order in which they are listed. -/
def all : List AxisUnit := [pixel, factor, unspecified, invalid]

/-- Every unit is listed. -/
theorem mem_all (u : AxisUnit) : u ∈ all := by
  cases u <;> simp [all]

/-- The written form of a unit. -/
def text : AxisUnit → String
  | pixel => "px"
  | factor => "x"
  | unspecified => "unspecified"
  | invalid => "invalid"

/-- The unit with a given written form. -/
def ofText? : String → Option AxisUnit
  | "px" => some pixel
  | "x" => some factor
  | "unspecified" => some unspecified
  | "invalid" => some invalid
  | _ => none

def label : AxisUnit → String
  | pixel => "PIXEL"
  | factor => "FACTOR"
  | unspecified => "UNSPECIFIED"
  | invalid => "INVALID"

end AxisUnit

end ImageSizing
