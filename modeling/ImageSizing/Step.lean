/-!
# Scaling steps

The queue of a size holds steps.  A step is one of four built-in policies or a custom
function; a custom function is known here by its name and a key, and what it does is the
business of the engine that runs it.  A step can be registered under a further name: that
makes a new step around it, which does the same and is not built in.
-/

namespace ImageSizing

/-- The built-in ways to fit a size to a picture. -/
inductive Policy where
  | contain
  | cover
  | exact
  | check
deriving DecidableEq, Inhabited

namespace Policy

/-- All policies, in the order in which they are registered. -/
def all : List Policy := [contain, cover, exact, check]

def name : Policy → String
  | contain => "contain"
  | cover => "cover"
  | exact => "exact"
  | check => "check"

def ofName? : String → Option Policy
  | "contain" => some contain
  | "cover" => some cover
  | "exact" => some exact
  | "check" => some check
  | _ => none

end Policy

/-- A custom function, possibly without a name; the key tells functions apart. -/
structure Callable where
  name : Option String
  key : Nat
deriving DecidableEq, Inhabited

namespace Callable

/-- The printed form of a custom function. -/
def text (c : Callable) : String := "<fn " ++ c.name.getD "?" ++ ">"

/-- The name of the step that a custom function becomes: its own, else its printed form. -/
def stepName (c : Callable) : String := c.name.getD c.text

end Callable

/-- What a step does. -/
inductive Action where
  | builtIn (policy : Policy)
  | custom (callable : Callable)
deriving DecidableEq

/-- One entry of a resolved queue; `inner` are the names of the steps within it, outermost
first. -/
structure Step where
  name : String
  action : Action
  inner : List String := []
deriving DecidableEq

namespace Step

/-- The step of a policy, under the policy's name. -/
def ofPolicy (p : Policy) : Step := { name := p.name, action := .builtIn p }

/-- The step of a custom function that was given directly. -/
def ofCallable (c : Callable) : Step := { name := c.stepName, action := .custom c }

/-- A step under a further name. -/
def under (name : String) (s : Step) : Step := ⟨name, s.action, s.name :: s.inner⟩

/-- Whether the step comes down to a policy, under whatever names. -/
def runsPolicy (s : Step) : Bool :=
  match s.action with
  | .builtIn _ => true
  | .custom _ => false

/-- Whether the step is built in: a policy itself and no step around it. -/
def isBuiltIn (s : Step) : Bool := s.runsPolicy && s.inner.isEmpty

end Step

end ImageSizing
