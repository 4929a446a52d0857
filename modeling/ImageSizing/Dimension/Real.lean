import ImageSizing.Value.Shown

/-!
# Reading real dimensions

The actual size of a picture may be given as a mapping with both axes, as a pair or as two
numbers.  Truth values pass for numbers until the axes are looked at, which must be positive
numbers of their own.
-/

namespace ImageSizing

namespace RealDimension

/-- A real dimension from two loose values, both positive numbers. -/
def make? (width height : Value) : Except Fault RealDimension :=
  match width.number? with
  | none => do .error (.axisNotPositive "width" (← width.quoted?))
  | some w =>
    if hw : w.isNonpositive = false then
      match height.number? with
      | none => do .error (.axisNotPositive "height" (← height.quoted?))
      | some h =>
        if hh : h.isNonpositive = false then .ok ⟨w, h, hw, hh⟩
        else do .error (.axisNotPositive "height" (← height.quoted?))
    else do .error (.axisNotPositive "width" (← width.quoted?))

/-- A real dimension from a mapping with both axes. -/
def ofMapping (m : Mapping) : Except Fault RealDimension :=
  match m.get? "width" with
  | none => .error (.missingAxis "width")
  | some w =>
    match m.get? "height" with
    | none => .error (.missingAxis "height")
    | some h => make? w h

/-- Reads a real dimension: one already, a mapping, a pair, or two numbers. -/
def read (value : Value) (height : Value := .nothing) : Except Fault RealDimension :=
  match value with
  | .real r => .ok r
  | .map m => ofMapping m
  | .list [w, h] => make? w h
  | .tuple [w, h] => make? w h
  | v =>
    match v.quantity?, height with
    | some _, .nothing => do .error (.notRealDimension (← v.quoted?))
    | some _, h => make? v h
    | none, _ => do .error (.notRealDimension (← v.quoted?))

end RealDimension

end ImageSizing
