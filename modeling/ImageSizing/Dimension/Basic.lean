import ImageSizing.Value.Basic

/-!
# Dimensions

One axis of a wanted size is a `Dimension`: a unit with a value.  A dimension that was read
has a number as its value if it is pixels or a factor, and no value otherwise; one that a
user hands over ready-made may hold anything, and calculations with it fail where they need
a number.
-/

namespace ImageSizing

/-- A width or a height, split into unit and value. -/
structure Dimension where
  unit : AxisUnit
  value : Value := .nothing
deriving Inhabited

namespace Dimension

def pixel (v : Value) : Dimension := ⟨.pixel, v⟩

def factor (x : Binary64) : Dimension := ⟨.factor, .float x⟩

/-- An axis that was left out. -/
def unspecified : Dimension := ⟨.unspecified, .nothing⟩

/-- An axis that cannot be read. -/
def invalid : Dimension := ⟨.invalid, .nothing⟩

def toValue (d : Dimension) : Value := .dim d.unit d.value

/-- Present, readable or not. -/
def isSpecified (d : Dimension) : Bool := d.unit != .unspecified

/-- Pixels or a factor. -/
def isConcrete (d : Dimension) : Bool := d.unit == .pixel || d.unit == .factor

def toMapping (d : Dimension) : Mapping :=
  [(.str "unit", .str d.unit.text), (.str "value", d.value)]

end Dimension

end ImageSizing
