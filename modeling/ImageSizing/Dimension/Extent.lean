import ImageSizing.Number

/-!
# Extents

A `RealDimension` is the actual size of a picture, both axes positive (or `nan`, which
compares with nothing); a `PixelSize` is the answer in whole pixels.
-/

namespace ImageSizing

/-- The actual size of a picture; no axis is zero or negative. -/
structure RealDimension where
  width : Number
  height : Number
  width_pos : width.isNonpositive = false
  height_pos : height.isNonpositive = false
deriving DecidableEq

/-- A size in whole pixels. -/
structure PixelSize where
  width : Nat
  height : Nat
deriving DecidableEq, Inhabited

end ImageSizing
