import ImageSizing.Value.Shown

/-!
# The registry

The names under which scaling functions are known.  The four policies are always known and
come first; custom functions follow in the order in which their names were first accepted.
A later function of the same name takes the earlier one's place.
-/

namespace ImageSizing

/-- The steps of the custom functions, in the order in which their names were accepted. -/
structure Registry where
  custom : List Step := []

namespace Registry

instance : Inhabited Registry := ⟨{}⟩

/-- The known names. -/
def names (r : Registry) : List String := Policy.all.map Policy.name ++ r.custom.map Step.name

/-- The step that a name stands for. -/
def find? (r : Registry) (name : String) : Option Step :=
  match Policy.ofName? name with
  | some p => some (.ofPolicy p)
  | none => r.custom.find? fun s => s.name == name

/-- Puts a step in its name's old place, else at the end. -/
def put (s : Step) : List Step → List Step
  | [] => [s]
  | t :: rest => if t.name = s.name then s :: rest else t :: put s rest

/-- The step that a value becomes under a name, if it can be called; a step can be called as
well. -/
def stepUnder? (name : String) : Value → Option Step
  | .callable c => some { name, action := .custom c }
  | .step s => some (s.under name)
  | _ => none

/-- Registers a value under a name given as a value. -/
def register (r : Registry) (name func : Value) : Except Failure Registry :=
  match name with
  | .str n =>
    if n.isEmpty then .error (.sizing (.unnamedFunction (Text.quote n)))
    else if (Policy.ofName? n).isSome then .error (.sizing (.builtInName n))
    else
      match stepUnder? n func with
      | some s => .ok { custom := put s r.custom }
      | none => .error (.sizing (.notCallable n))
  | v =>
    match v.quoted? with
    | .ok q => .error (.sizing (.unnamedFunction q))
    | .error f => .error (.fault f)

def known (r : Registry) : String := ", ".intercalate (r.names.map fun n => "'" ++ n ++ "'")

end Registry

end ImageSizing
