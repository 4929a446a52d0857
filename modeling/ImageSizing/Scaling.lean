import ImageSizing.Size.Spec
import ImageSizing.Value.Arithmetic
import ImageSizing.Logged

/-!
# Scaling

The built-in policies.  `validate` accepts a size with a readable width that is given on at
least one axis, and drops an unreadable height.  `inferMissing` fills a missing axis so that
the shape of the picture is kept.  `contain` and `cover` scale both axes by one factor, the
smaller or the larger of the two that the axes ask for; `exact` insists on both axes.
-/

namespace ImageSizing

namespace Scaling

/-! ## Dimensions against a real axis -/

/-- A dimension as a fraction of the real axis. -/
def relative (d : Dimension) (axis : Value) : Except Failure Value :=
  match d.unit with
  | .factor => .ok d.value
  | .pixel => (d.value.dividedBy axis).mapError .fault
  | u => .error (.sizing (.notRelatable u))

def absolute (d : Dimension) (axis : Value) : Except Failure Value :=
  match d.unit with
  | .factor => (d.value.times axis).mapError .fault
  | .pixel => .ok d.value
  | u => .error (.sizing (.notAbsolute u))

/-! ## Validation and inference -/

/-- The description of the snapshot of a size. -/
def described (s : SizeSpec) : Logged String :=
  .ofFaulty (Value.description? (.map s.original))

/-- The text of an entry of the snapshot of a size. -/
def shown (s : SizeSpec) (key : String) : Logged String :=
  .ofFaulty (Value.display? (s.original.get key))

/-- Drops an invalid height with a warning. -/
def dropInvalidHeight (s : SizeSpec) : Logged SizeSpec :=
  if s.height.unit = .invalid then do
    Logged.warn ("Invalid height '" ++ (← shown s "height") ++ "' specified, ignoring it")
    return s.withSize s.width .unspecified
  else pure s

/-- Accepts a size with a readable width and at least one axis given. -/
def validate (s : SizeSpec) : Logged SizeSpec := do
  if s.width.unit = .invalid then Logged.fatal (.invalidWidth (← shown s "width"))
  else
    let t ← dropInvalidHeight s
    if t.width.isSpecified || t.height.isSpecified then return t
    else Logged.fatal (.nothingSpecified (← described t))

/-- The pixels of an axis that has the same share of its real axis as another dimension. -/
def matching (d : Dimension) (axis other : Number) : Except Failure Dimension := do
  let share ← relative d (.ofNumber axis)
  return .pixel (← (share.times (.ofNumber other)).mapError .fault)

/-- Fills a missing axis so that the shape of the picture is kept. -/
def inferMissing (s : SizeSpec) (real : RealDimension) : Except Failure SizeSpec := do
  let width ←
    if s.width.isSpecified then pure s.width else matching s.height real.height real.width
  let height ←
    if s.height.isSpecified then pure s.height else matching width real.width real.height
  return s.withSize width height

/-! ## Policies -/

/-- Which of two factors scales both axes. -/
inductive Choice where
  | smaller
  | larger
deriving DecidableEq

namespace Choice

/-- Whether a value is strictly better than another. -/
def prefers : Choice → Value → Value → Except Fault Bool
  | smaller => Value.isBelow
  | larger => Value.isAbove

/-- The chosen one of two values, the first unless the second is strictly better. -/
def of (c : Choice) (a b : Value) : Except Fault Value := do
  return if ← c.prefers b a then b else a

end Choice

/-- Scales both axes by one factor, chosen from that of the height and that of the width. -/
def scaleBoth (choice : Choice) (s : SizeSpec) (real : RealDimension) : Except Failure SizeSpec := do
  let t ← inferMissing s real
  let h ← relative t.height (.ofNumber real.height)
  let w ← relative t.width (.ofNumber real.width)
  let f ← (choice.of h w >>= Value.toBinary64).mapError .fault
  return t.withSize (.factor f) (.factor f)

/-- The largest uniform scale that stays inside the wanted box. -/
def contain (s : SizeSpec) (real : RealDimension) : Logged SizeSpec := do
  Logged.ofExcept (scaleBoth .smaller (← validate s) real)

/-- The smallest uniform scale that fills the wanted box. -/
def cover (s : SizeSpec) (real : RealDimension) : Logged SizeSpec := do
  Logged.ofExcept (scaleBoth .larger (← validate s) real)

/-- Both axes as they are, which must both be given. -/
def exact (s : SizeSpec) : Logged SizeSpec := do
  let t ← validate s
  if t.width.isSpecified && t.height.isSpecified then return t
  else Logged.fatal (.exactNeedsBoth (← described t))

end Scaling

def Policy.apply (p : Policy) (s : SizeSpec) (real : RealDimension) : Logged SizeSpec :=
  match p with
  | .contain => Scaling.contain s real
  | .cover => Scaling.cover s real
  | .exact => Scaling.exact s
  | .check => Scaling.validate s

end ImageSizing
