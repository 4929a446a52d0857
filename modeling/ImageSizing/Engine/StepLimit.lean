import ImageSizing.Number

/-!
# Step limits

How many steps a calculation may run.  A limit is mostly a whole number, but it may be given
as a double or as the truth value that counts as one, and messages show it as it was given.
-/

namespace ImageSizing

/-- A limit as it was given. -/
inductive StepLimit where
  | count (n : Nat)
  | single
  | double (x : Binary64)
deriving DecidableEq

namespace StepLimit

instance : Inhabited StepLimit := ⟨.count 100⟩

/-- The number of steps where a limit sets none, being infinite or not a number.  This is not
quite the same: a queue that is not empty after so many steps is given up here, and would be worked
on without a limit. -/
def endless : Nat := Nat.pow 2 62

/-- The least number of steps that reaches a double; none if it is below one. -/
def stepsOfDouble (x : Binary64) : Nat :=
  if x.ltInt 1 then 0
  else
    match x.floor? with
    | some n => if x.isWhole then n.toNat else n.toNat + 1
    | none => endless

/-- The number of steps that may be run. -/
def steps : StepLimit → Nat
  | count n => n
  | single => 1
  | double x => stepsOfDouble x

def text : StepLimit → String
  | count n => Numeral.text n
  | single => "True"
  | double x => x.text

end StepLimit

end ImageSizing
