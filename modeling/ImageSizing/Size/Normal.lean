import ImageSizing.Size.Canonical
import ImageSizing.Engine.Registry
import ImageSizing.Dimension.Reading

/-!
# Normal sizes

The normal form of a size reads both axes, resolves every function reference to a step and
freezes the snapshot.  A reference that cannot be resolved becomes the default policy, with
a warning.  A size that names no function gets the default policy alone; an explicit empty
list means that nothing is to be done.
-/

namespace ImageSizing.Size

/-- The entries that are not passed on as extras. -/
def reservedKeys : List String := ["width", "height", "function", "original"]

/-- Whether an entry belongs to the extras. -/
def isExtra (key : Value) : Bool := !reservedKeys.any fun k => Mapping.isKey k key

/-- Whether a value names no function, so that the default applies. -/
def namesNone : Value → Bool
  | .nothing => true
  | .bool b => !b
  | .str s => s.isEmpty
  | _ => false

/-- The references under `function`; no entry at all stands for the default policy. -/
def references (cfg : EngineConfig) : Value → List Value
  | .list refs => refs
  | .tuple refs => refs
  | v => if namesNone v then [.str cfg.defaultPolicy.name] else [v]

/-- The warning about a name that is not known. -/
def unknownName (cfg : EngineConfig) (r : Registry) (name : String) : String :=
  "Unknown size function '" ++ name ++ "', using '" ++ cfg.defaultPolicy.name
    ++ "' instead.\n(expected one of " ++ r.known ++ ")"

/-- The warning about a value that is no function. -/
def unusableObject (cfg : EngineConfig) (r : Registry) (typeName : String) : String :=
  "Invalid object of type " ++ typeName ++ " provided as size function, using '"
    ++ cfg.defaultPolicy.name ++ "' instead.\n(expected a function or one of " ++ r.known ++ ")"

/-- The step that a reference stands for, if it stands for one. -/
def stepOf? (r : Registry) : Value → Option Step
  | .step s => some s
  | .str name => r.find? name
  | .callable c => some (.ofCallable c)
  | _ => none

/-- The warning about a reference that stands for no step. -/
def warningFor (cfg : EngineConfig) (r : Registry) : Value → String
  | .str name => unknownName cfg r name
  | v => unusableObject cfg r v.typeName

/-- The step of a reference, the default policy after a warning where there is none. -/
def resolve (cfg : EngineConfig) (r : Registry) (ref : Value) : Logged Step :=
  match stepOf? r ref with
  | some s => pure s
  | none => do
    Logged.warn (warningFor cfg r ref)
    return .ofPolicy cfg.defaultPolicy

def resolveAll (cfg : EngineConfig) (r : Registry) : List Value → Logged (List Step)
  | [] => pure []
  | ref :: rest => do
    let s ← resolve cfg r ref
    let ss ← resolveAll cfg r rest
    return s :: ss

/-- The normal form of a specification. -/
def normalizeSpec (cfg : EngineConfig) (r : Registry) (width height : Value)
    (functions : List Value) (original extras : Mapping) : Logged SizeSpec := do
  let w ← Logged.ofFaulty (Dimension.read cfg.grammar width)
  let h ← Logged.ofFaulty (Dimension.read cfg.grammar height)
  let queue ← resolveAll cfg r functions
  return ⟨w, h, queue, original, extras⟩

def normalizeCanonical (cfg : EngineConfig) (r : Registry) (canonical : Mapping) :
    Logged SizeSpec := do
  let refs := references cfg (canonical.get "function")
  let w ← Logged.ofFaulty (Dimension.read cfg.grammar (canonical.get "width"))
  let h ← Logged.ofFaulty (Dimension.read cfg.grammar (canonical.get "height"))
  let queue ← resolveAll cfg r refs
  let original ← Logged.ofFaulty (Mapping.ofValue (canonical.get "original"))
  return ⟨w, h, queue, original, canonical.filter fun e => isExtra e.1⟩

/-- The canonical form with another snapshot, where one is given. -/
def pin (pinned : Option Mapping) (canonical : Mapping) : Mapping :=
  match pinned with
  | none => canonical
  | some original => Mapping.insert "original" (.map original) canonical

/-- The normal form of a size; `pinned` is the snapshot taken earlier in the same
calculation. -/
def normalize (cfg : EngineConfig) (r : Registry) (raw : Value) (pinned : Option Mapping := none) :
    Logged SizeSpec :=
  match raw with
  | .spec w h fs o e => normalizeSpec cfg r w h fs (pinned.getD o) e
  | raw => do normalizeCanonical cfg r (pin pinned (← canonical cfg raw))

end ImageSizing.Size
