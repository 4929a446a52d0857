import ImageSizing.Value.Basic
import ImageSizing.Value.KeyOrder.Sort

/-!
# The order of keys

Entries of a mapping sorted by key, `Value.sortByKey?`: texts by code point, numbers by size.
A mixture of the two, or keys of any other kind, has no order.
-/

namespace ImageSizing

namespace Value

def text? : Value → Option String
  | .str s => some s
  | _ => none

/-- Whether a text key stands before another, by code point. -/
def textBelow (a b : Value) : Bool := decide (a.text?.getD "" < b.text?.getD "")

def numberBelow (a b : Value) : Bool :=
  (a.quantity?.getD default).lt (b.quantity?.getD default)

/-- Entries sorted by key: texts by code point, numbers by size.  Two or more keys of any
other mixture have no order. -/
def sortByKey? {α : Type} (entries : List (Value × α)) : Option (List (Value × α)) :=
  match entries with
  | [] => some []
  | [e] => some [e]
  | es =>
    if es.all fun e => e.1.text?.isSome then some (KeyOrder.sort (fun a b => textBelow a.1 b.1) es)
    else if es.all fun e => e.1.quantity?.isSome then
      some (KeyOrder.sort (fun a b => numberBelow a.1 b.1) es)
    else none

end Value

end ImageSizing
