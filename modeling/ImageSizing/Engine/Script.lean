import ImageSizing.Size.Spec

/-!
# Scripts

What a custom function does, as a tree of the requests that it makes of the engine.  A
script ends with a value or with a fault; before that it may ask for a canonical or a normal
form, for a calculation, for a size in pixels, or for the effect of a policy, and goes on
with the answer.  It goes on with answers only: when a request fails, the failure is the
script's own.
-/

namespace ImageSizing

/-- The requests of a custom function and its final answer. -/
inductive Script where
  | done (answer : Value)
  | fail (fault : Fault)
  | elaborate (size : Value) (next : Mapping → Script)
  | normalize (size : Value) (next : SizeSpec → Script)
  | calculate (size : Value) (real : RealDimension) (next : SizeSpec → Script)
  | toPixels (size : Value) (real : RealDimension) (next : PixelSize → Script)
  | apply (policy : Policy) (size : SizeSpec) (real : RealDimension) (next : SizeSpec → Script)

namespace Script

instance : Inhabited Script := ⟨.done .nothing⟩

/-- The script that ends with a value or with the fault in its place. -/
def ofExcept : Except Fault Value → Script
  | .ok v => .done v
  | .error f => .fail f

end Script

/-- A custom scaling function: from the size at hand and the real dimension to a script. -/
abbrev ScalingFunction := SizeSpec → RealDimension → Script

end ImageSizing
