import ImageSizing.Size.Spec
import ImageSizing.Logged
import ImageSizing.Text.Split
import ImageSizing.Engine.Config

/-!
# Canonical sizes

A size is written as one dimension, as two of them around a separator, as a mapping, or is
a specification already.  Its canonical form is a mapping that carries, under `original`, a
snapshot of itself without that entry; a snapshot that is already there is kept.  Nothing
of the input is shared: mappings and sequences are copied, and tuples become lists.

Values may be nested as deeply as they like.  A program that copies them on a stack of limited
depth fails on those that are nested too deeply; here every value has a copy.
-/

namespace ImageSizing

namespace Value

mutual

/-- A copy of a value, with lists in the place of tuples. -/
def copy : Value → Value
  | .list items => .list (copyItems items)
  | .tuple items => .list (copyItems items)
  | .map entries => .map (copyEntries entries)
  | v => v

def copyItems : List Value → List Value
  | [] => []
  | v :: rest => copy v :: copyItems rest

/-- A copy of the entries of a mapping, keys as they are. -/
def copyEntries : List (Value × Value) → List (Value × Value)
  | [] => []
  | (k, v) :: rest => (k, copy v) :: copyEntries rest

end

end Value

/-- A pixel size as a mapping. -/
def PixelSize.toValue (p : PixelSize) : Value :=
  .map [(.str "width", .int p.width), (.str "height", .int p.height)]

namespace Size

/-- An axis of a specification as a mapping. -/
def axisMapping : Value → Except Fault Value
  | .dim u v => .ok (.map (Dimension.mk u v).toMapping)
  | .pixels p => .ok p.toValue
  | v => .error (.noAttribute v.typeName "as_dict")

/-- The canonical form of a specification, its snapshot aside. -/
def ofSpec (width height : Value) (functions : List Value) (original extras : Mapping) :
    Except Fault Mapping := do
  let w ← axisMapping width
  let h ← axisMapping height
  let base : Mapping := (Value.copyEntries extras).foldl (fun m e => Mapping.insertKey e.1 e.2 m)
    [(.str "width", w), (.str "height", h)]
  let queued := if functions.isEmpty then base else Mapping.insert "function" (.list functions) base
  return if original.isEmpty then queued
    else Mapping.insert "original" (.map (Value.copyEntries original)) queued

/-- Adds the snapshot, unless there is one. -/
def withSnapshot (canonical : Mapping) : Mapping :=
  if (canonical.get "original").isTruthy then canonical
  else Mapping.insert "original" (.map (Value.copyEntries (canonical.erase "original"))) canonical

def widthOnly (raw : Value) : Mapping := [(.str "width", raw)]

/-- A text with the separator in it, which must be there exactly once. -/
def ofPair (separator raw : String) (parts : List Char × List Char) : Logged Mapping :=
  match Text.cut? separator.toList parts.2 with
  | some _ => .fatal (.malformedPair raw separator)
  | none => pure [(.str "width", .str (String.ofList parts.1)),
      (.str "height", .str (String.ofList parts.2))]

/-- The canonical form of a text, its snapshot aside. -/
def ofText (cfg : EngineConfig) (raw : String) : Logged Mapping :=
  match cfg.separator with
  | .unusable t => .fail (.fault (.separatorType t))
  | .text separator _ =>
    match Text.cut? separator.toList raw.toList with
    | some parts => ofPair separator raw parts
    | none => pure (widthOnly (.str raw))

/-- The canonical form of a size, its snapshot aside. -/
def entries (cfg : EngineConfig) : Value → Logged Mapping
  | .spec w h fs o e => .ofFaulty (ofSpec w h fs o e)
  | .map m => pure (Value.copyEntries m)
  | .nothing => pure []
  | .str raw => ofText cfg raw
  | raw => pure (widthOnly raw)

def canonical (cfg : EngineConfig) (raw : Value) : Logged Mapping := do
  return withSnapshot (← entries cfg raw)

end Size

end ImageSizing
