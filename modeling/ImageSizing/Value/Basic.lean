import ImageSizing.Dimension.Extent
import ImageSizing.Dimension.Unit
import ImageSizing.Step

/-!
# Values

Sizes are written by users as loose values: numbers, text, lists, mappings, and the
library's own objects mixed in.  `Value` is that data.  A mapping is its entries in the
order of insertion, without two equal keys; look-up by a text key is `Mapping.get?`.
-/

namespace ImageSizing

/-- A loose value. -/
inductive Value where
  | nothing
  | bool (b : Bool)
  | int (n : Int)
  | float (x : Binary64)
  | str (s : String)
  | list (items : List Value)
  | tuple (items : List Value)
  | map (entries : List (Value × Value))
  | dim (unit : AxisUnit) (value : Value)
  | real (r : RealDimension)
  | pixels (p : PixelSize)
  | spec (width height : Value) (functions : List Value) (original extras : List (Value × Value))
  | step (s : Step)
  | callable (c : Callable)
  | foreign
deriving Inhabited

/-- The entries of a mapping, in the order of insertion. -/
abbrev Mapping := List (Value × Value)

namespace Value

def ofNumber : Number → Value
  | .int n => .int n
  | .float x => .float x

/-- The number that a value is; truth values are no numbers here. -/
def number? : Value → Option Number
  | .int n => some (.int n)
  | .float x => some (.float x)
  | _ => none

/-- The name of a value's type, as messages give it. -/
def typeName : Value → String
  | .nothing => "NoneType"
  | .bool _ => "bool"
  | .int _ => "int"
  | .float _ => "float"
  | .str _ => "str"
  | .list _ => "list"
  | .tuple _ => "tuple"
  | .map _ => "dict"
  | .dim .. => "Dimension"
  | .real _ => "RealDimension"
  | .pixels _ => "EffectiveDimension"
  | .spec .. => "SizeSpec"
  | .step _ => "ScalingStep"
  | .callable _ => "Fn"
  | .foreign => "Opaque"

/-- Whether a value counts as present: zero, empty text and empty collections do not. -/
def isTruthy : Value → Bool
  | .nothing => false
  | .bool b => b
  | .int n => n != 0
  | .float x => !x.isZero
  | .str s => !s.isEmpty
  | .list items => !items.isEmpty
  | .tuple items => !items.isEmpty
  | .map entries => !entries.isEmpty
  | _ => true

/-- The number that a value counts as; truth values count as 0 and 1. -/
def quantity? : Value → Option Number
  | .bool b => some (.int (if b then 1 else 0))
  | .int n => some (.int n)
  | .float x => some (.float x)
  | _ => none

mutual

/-- Whether two values are equal, as the keys of a mapping are: numbers by size, sequences item
by item, dimensions by their values.  Objects of no known type are never equal. -/
def sameKey : Value → Value → Bool
  | .nothing, .nothing => true
  | .str s, .str t => s == t
  | .list xs, .list ys => sameKeys xs ys
  | .tuple xs, .tuple ys => sameKeys xs ys
  | .dim u v, .dim u' v' => u == u' && sameKey v v'
  | .real r, .real t => r.width.numericEq t.width && r.height.numericEq t.height
  | .pixels p, .pixels q => p == q
  | .step s, .step t => s == t
  | .callable c, .callable d => c == d
  | x, y =>
    match x.quantity?, y.quantity? with
    | some a, some b => a.numericEq b
    | _, _ => false

/-- Item by item equal. -/
def sameKeys : List Value → List Value → Bool
  | [], [] => true
  | x :: xs, y :: ys => sameKey x y && sameKeys xs ys
  | _, _ => false

end

end Value

namespace Mapping

def get? (key : String) : Mapping → Option Value
  | [] => none
  | (.str k, v) :: rest => if k = key then some v else get? key rest
  | _ :: rest => get? key rest

/-- The value under a text key, `nothing` when there is none. -/
def get (m : Mapping) (key : String) : Value := (m.get? key).getD .nothing

/-- Whether a key is the given text. -/
def isKey (key : String) : Value → Bool
  | .str k => k == key
  | _ => false

/-- Puts a value under a text key: in the key's old place, else at the end. -/
def insert (key : String) (value : Value) : Mapping → Mapping
  | [] => [(.str key, value)]
  | (k, v) :: rest =>
    if isKey key k then (k, value) :: rest else (k, v) :: insert key value rest

/-- The entries under other keys than the given text. -/
def erase (m : Mapping) (key : String) : Mapping := m.filter fun e => !isKey key e.1

/-- Puts a value under any key: in the key's old place, else at the end. -/
def insertKey (key value : Value) : Mapping → Mapping
  | [] => [(key, value)]
  | (k, v) :: rest =>
    if k.sameKey key then (k, value) :: rest else (k, v) :: insertKey key value rest

/-- The mapping built by inserting pairs one after the other. -/
def ofPairs (pairs : List (Value × Value)) : Mapping :=
  pairs.foldl (fun m p => insertKey p.1 p.2 m) []

end Mapping

end ImageSizing
