import ImageSizing.Engine.Basic

/-!
# Recipes

Ready-made custom functions, described by data.  `Recipe.function` gives the scaling
function of a recipe; it is told which custom function it is, because a recipe may put
itself into the queue again.
-/

namespace ImageSizing

/-- What a ready-made custom function does. -/
inductive Recipe where
  | nothing
  | answer (value : Value)
  | andThen (refs : List Value)
  | resize (width height : Value) (refs : List Value)
  | scale (factor : Value)
  | swap
  | fillReal
  | extra (key : String)
  | original (key : String)
  | normalize (size : Value)
  | nested (size : Value)
  | apply (policy : Policy)
  | clear
  | grow (amount limit : Value)
  | raise (message : String)

namespace Recipe

instance : Inhabited Recipe := ⟨.nothing⟩

/-- A dimension with its value multiplied, where it is pixels or a factor. -/
def scaleDimension (factor : Value) (d : Dimension) : Except Fault Dimension := do
  if d.isConcrete then return { d with value := ← d.value.times factor } else return d

/-- Both dimensions of a size multiplied. -/
def scaleSize (factor : Value) (s : SizeSpec) : Except Fault Value := do
  return (s.withSize (← scaleDimension factor s.width) (← scaleDimension factor s.height)).toValue

/-- Both dimensions of a size replaced by ones that are read, and references added. -/
def resizeTo (width height : Value) (refs : List Value) (s : SizeSpec) : Except Fault Value := do
  let w ← Dimension.read .standard width
  let h ← Dimension.read .standard height
  return (s.withSize w h).andThen refs

/-- The width enlarged, and the function itself queued again while the width is below a limit. -/
def growBy (self : Callable) (amount limit : Value) (s : SizeSpec) : Except Fault Value := do
  if s.width.isConcrete then
    let sum ← s.width.value.plus amount
    let grown := s.withSize (.pixel sum) s.height
    return if ← sum.isBelow limit then grown.andThen [.callable self] else grown.toValue
  else return .nothing

def function (self : Callable) (recipe : Recipe) : ScalingFunction := fun s real =>
  match recipe with
  | .nothing => .done .nothing
  | .answer v => .done v
  | .andThen refs => .done (s.andThen refs)
  | .resize w h refs => .ofExcept (resizeTo w h refs s)
  | .scale factor => .ofExcept (scaleSize factor s)
  | .swap => .done (s.withSize s.height s.width).toValue
  | .fillReal => .done (s.withSize (.pixel (.ofNumber real.width)) (.pixel (.ofNumber real.height))).toValue
  | .extra key => .done (s.extras.get key)
  | .original key => .done (s.original.get key)
  | .normalize size => .normalize size fun n => .done n.toValue
  | .nested size => .toPixels size real fun p => .done p.toValue
  | .apply p => .apply p s real fun n => .done n.toValue
  | .clear => .done (s.withQueue []).toValue
  | .grow amount limit => .ofExcept (growBy self amount limit s)
  | .raise m => .fail (.raised m)

/-- The scaling functions of a table of recipes; a function's key is its place there. -/
def functions (table : Array Recipe) (c : Callable) : ScalingFunction :=
  function c (table[c.key]?.getD .nothing)

end Recipe

end ImageSizing
