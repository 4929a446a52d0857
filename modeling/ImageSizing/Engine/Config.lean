import ImageSizing.Dimension.Grammar
import ImageSizing.Value.Shown

/-!
# Engine configuration

The settings of an engine: the policy of sizes that name no function, the separator between
a width and a height, the step limit and the token grammar.  The separator is not empty and
the limit is at least one; `EngineConfig.make?` checks both, after the policy's name.  A
separator that is no text is accepted, but then no text can be read as a size.
-/

namespace ImageSizing

/-- What stands between a width and a height: a text, or a value of another type. -/
inductive Separator where
  | text (s : String) (ne : s ≠ "" := by decide)
  | unusable (typeName : String)

namespace Separator

instance : Inhabited Separator := ⟨.text "X"⟩

/-- The separator that a value is, if it counts as present. -/
def ofValue? (v : Value) : Option Separator :=
  match v with
  | .str s => if h : s ≠ "" then some (.text s h) else none
  | v => if v.isTruthy then some (.unusable v.typeName) else none

end Separator

/-- The settings of an engine. -/
structure EngineConfig where
  defaultPolicy : Policy := .contain
  separator : Separator := .text "X"
  maxSteps : StepLimit := .count 100
  grammar : Grammar := .standard
  maxSteps_pos : 0 < maxSteps.steps := by decide

namespace EngineConfig

/-- The usual settings: `contain`, a separator `X`, a hundred steps, the standard tokens. -/
def standard : EngineConfig := {}

instance : Inhabited EngineConfig := ⟨standard⟩

def policy? : Value → Option Policy
  | .str s => Policy.ofName? s
  | _ => none

/-- The step limit that a value is, which must be a number. -/
def limitOf? : Value → Option StepLimit
  | .int n => some (.count n.toNat)
  | .float x => some (.double x)
  | .bool b => some (if b then .single else .count 0)
  | _ => none

/-- Settings from loose values, if they are acceptable. -/
def make? (default separator limit : Value) (grammar : Grammar) : Except Fault EngineConfig :=
  match policy? default with
  | none => do .error (.badDefault (← default.quoted?))
  | some p =>
    match Separator.ofValue? separator, limitOf? limit with
    | none, _ => .error .emptySeparator
    | some _, none => .error (.notOrdered "<" limit.typeName "int")
    | some s, some l =>
      if h : 0 < l.steps then
        .ok { defaultPolicy := p, separator := s, maxSteps := l, grammar := grammar, maxSteps_pos := h }
      else do .error (.badLimit (← limit.display?))

end EngineConfig

end ImageSizing
