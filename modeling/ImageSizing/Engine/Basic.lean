import ImageSizing.Engine.Script
import ImageSizing.Size.Normal
import ImageSizing.Scaling
import ImageSizing.Template.Part.Attributes

/-!
# The engine

An engine resolves sizes against the real size of a picture.  `calculate` runs the queue of
a size: the first step is taken off, run, and its answer is normalized again, with the
snapshot of the beginning; an answer that counts as absent leaves the size as it was.
Steps may put further steps into the queue, so the number of steps is limited.  `toPixels`
turns the resulting axes into whole pixels.

Custom functions may call the engine again.  `resolveAt depth` is the calculation that such
a nested call runs, with at most `depth` calls inside one another.
-/

namespace ImageSizing

/-- Settings, known names, what custom functions do, and which attributes values have in the
templates of names. -/
structure Engine where
  config : EngineConfig := .standard
  registry : Registry := {}
  functions : Callable → ScalingFunction := fun _ _ _ => .done .nothing
  nesting : Nat := 150
  attributes : Template.Attributes := Template.Part.attributes

namespace Engine

instance : Inhabited Engine := ⟨{}⟩

/-- The names under which functions are known. -/
def functionNames (e : Engine) : List String := e.registry.names

/-- Makes a custom function known under a name. -/
def register (e : Engine) (name func : Value) : Except Failure Engine := do
  return { e with registry := ← e.registry.register name func }

/-- The canonical form of a size. -/
def elaborate (e : Engine) (size : Value) : Logged Mapping := Size.canonical e.config size

def normalize (e : Engine) (size : Value) : Logged SizeSpec :=
  Size.normalize e.config e.registry size

/-- The normal form of a size in a calculation that began with a given snapshot. -/
def renormalize (e : Engine) (original : Mapping) (size : Value) : Logged SizeSpec :=
  Size.normalize e.config e.registry size (some original)

/-- A whole pixel size that is not negative. -/
def toPixelSize (width height : Int) : Logged PixelSize :=
  if width < 0 ∨ height < 0 then .fatal (.negative width height)
  else pure ⟨width.toNat, height.toNat⟩

/-- Whether both axes are finite; the second is looked at only if the first is. -/
def bothFinite (width height : Value) : Except Fault Bool := do
  if ← width.isFinite then height.isFinite else return false

/-- The axes of a finished size in whole pixels. -/
def pixelsOf (s : SizeSpec) (real : RealDimension) : Logged PixelSize := do
  if s.width.isConcrete && s.height.isConcrete then
    let width ← Logged.ofExcept (Scaling.absolute s.width (.ofNumber real.width))
    let height ← Logged.ofExcept (Scaling.absolute s.height (.ofNumber real.height))
    if ← Logged.ofFaulty (bothFinite width height) then
      let w ← Logged.ofFaulty width.roundHalfUp
      let h ← Logged.ofFaulty height.roundHalfUp
      toPixelSize w h
    else Logged.fatal (.tooLarge (← Scaling.described s))
  else Logged.fatal (.unresolved (← Scaling.described s))

/-- How the engine calculates a size against a real dimension in a nested call. -/
abbrev Resolver := Value → RealDimension → Logged SizeSpec

def runScript (e : Engine) (resolver : Resolver) : Script → Logged Value
  | .done answer => pure answer
  | .fail fault => .fail (.fault fault)
  | .elaborate size next => do
    let m ← e.elaborate size
    e.runScript resolver (next m)
  | .normalize size next => do
    let s ← e.normalize size
    e.runScript resolver (next s)
  | .calculate size real next => do
    let s ← resolver size real
    e.runScript resolver (next s)
  | .toPixels size real next => do
    let p ← pixelsOf (← resolver size real) real
    e.runScript resolver (next p)
  | .apply policy size real next => do
    let s ← policy.apply size real
    e.runScript resolver (next s)

/-- Runs one step on the size at hand. -/
def perform (e : Engine) (resolver : Resolver) (step : Step) (size : SizeSpec)
    (real : RealDimension) : Logged Value :=
  match step.action with
  | .builtIn p => do return (← p.apply size real).toValue
  | .custom c => e.runScript resolver (e.functions c size real)

/-- What the next round starts from: the answer of a step, or the size it was given. -/
def answerOr (answer : Value) (size : SizeSpec) : Value :=
  if answer.isTruthy then answer else size.toValue

/-- The failure at the step limit, after a line in the log. -/
def limitReached (e : Engine) (original : Mapping) (pending : Nat) : Logged SizeSpec := do
  let error := SizingError.stepLimit e.config.maxSteps pending
  let d ← Logged.ofFaulty (Value.description? (.map original))
  ⟨[.error (error.message ++ SizingError.forSize d)], .error (.sizing error)⟩

/-- Runs a queue until it is empty, with a number of steps to go. -/
def drain (e : Engine) (resolver : Resolver) (real : RealDimension) (original : Mapping) :
    Nat → SizeSpec → Logged SizeSpec
  | remaining, size =>
    match size.queue with
    | [] => pure size
    | step :: rest =>
      match remaining with
      | 0 => e.limitReached original size.queue.length
      | left + 1 => do
        let answer ← e.perform resolver step (size.withQueue rest) real
        let next ← e.renormalize original (answerOr answer (size.withQueue rest))
        drain e resolver real original left next

/-- Normalizes a size and runs its queue. -/
def calculateWith (e : Engine) (resolver : Resolver) (size : Value) (real : RealDimension) :
    Logged SizeSpec := do
  let s ← e.normalize size
  e.drain resolver real s.original e.config.maxSteps.steps s

/-- A calculation with at most `depth` engine calls inside one another. -/
def resolveAt (e : Engine) : Nat → Resolver
  | 0, _, _ => .fail (.fault .nestedTooDeep)
  | depth + 1, size, real => e.calculateWith (e.resolveAt depth) size real

/-- Runs the queue of a size until it is empty. -/
def calculate (e : Engine) (size : Value) (real : RealDimension) : Logged SizeSpec :=
  e.calculateWith (e.resolveAt e.nesting) size real

/-- A size in pixels. -/
def toPixels (e : Engine) (size : Value) (real : RealDimension) : Logged PixelSize := do
  pixelsOf (← e.calculate size real) real

end Engine

end ImageSizing
