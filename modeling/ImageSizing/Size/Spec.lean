import ImageSizing.Dimension.Basic
import ImageSizing.Value.Shown

/-!
# Size specifications

The normal form of a size: two axes, the queue of steps still to run, the snapshot of what
the user wrote, and the entries that are none of the library's business.  As a `Value` a
specification may also hold references that are not resolved yet (`SizeSpec.andThen`).
-/

namespace ImageSizing

/-- A normalized size. -/
structure SizeSpec where
  width : Dimension
  height : Dimension
  queue : List Step
  original : Mapping
  extras : Mapping

namespace SizeSpec

def withSize (s : SizeSpec) (width height : Dimension) : SizeSpec :=
  { s with width := width, height := height }

def withQueue (s : SizeSpec) (queue : List Step) : SizeSpec := { s with queue := queue }

/-- A specification with references at the end of its queue that are still to be resolved. -/
def andThen (s : SizeSpec) (refs : List Value) : Value :=
  .spec s.width.toValue s.height.toValue (s.queue.map .step ++ refs) s.original s.extras

def toValue (s : SizeSpec) : Value := s.andThen []

/-- The first step of the queue and the specification without it. -/
def popStep (s : SizeSpec) : Except Fault (Step × SizeSpec) :=
  match s.queue with
  | [] => .error .emptyQueue
  | step :: rest => .ok (step, s.withQueue rest)

end SizeSpec

namespace Mapping

/-- The name of the type that keeps a value from being a key, if one does.  A specification
is looked through in the order of its parts, and its snapshot can never be a key. -/
def unhashable? : Value → Option String
  | .list _ => some "list"
  | .map _ => some "dict"
  | .dim _ v => unhashable? v
  | .spec w h fs _ _ =>
    (((unhashable? w).or (unhashable? h)).or (unhashableItem? fs)).or (some "mappingproxy")
  | .tuple items => unhashableItem? items
  | _ => none
where
  /-- The first item that cannot be part of a key. -/
  unhashableItem? : List Value → Option String
    | [] => none
    | v :: rest => (unhashable? v).or (unhashableItem? rest)

/-- The items of a value that can be read one after the other. -/
def itemsOf? : Value → Option (List Value)
  | .list items => some items
  | .tuple items => some items
  | .str s => some (s.toList.map fun c => .str (String.singleton c))
  | .map entries => some (entries.map (·.1))
  | _ => none

/-- Inserts pairs given as values, each itself a sequence of two. -/
def insertPairs (m : Mapping) (index : Nat) : List Value → Except Fault Mapping
  | [] => .ok m
  | v :: rest =>
    match itemsOf? v with
    | none => .error (.elementNotSequence index)
    | some [key, value] =>
      match unhashable? key with
      | some t => .error (.unhashable t)
      | none => insertPairs (insertKey key value m) (index + 1) rest
    | some items => .error (.elementLength index items.length)

/-- The mapping that a value stands for: itself, pairs in a sequence, or nothing at all. -/
def ofValue (v : Value) : Except Fault Mapping :=
  if !v.isTruthy then .ok []
  else
    match v with
    | .map entries => .ok entries
    | v =>
      match itemsOf? v with
      | some items => insertPairs [] 0 items
      | none => .error (.notIterable v.typeName)

end Mapping

end ImageSizing
