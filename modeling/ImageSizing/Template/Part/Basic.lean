import ImageSizing.Template.Class.Member
import ImageSizing.Value.Shown

/-!
# Parts

A field of a template may look into the value that it names.  What such a look-up leads to
is a `Part`: a value again, or something that only a template can show, such as the unit of
a dimension, the class of a value, one of its operations or a snapshot.  `Part.quoted?` and
`Part.display?` are the two texts of a part.
-/

namespace ImageSizing.Template

/-- What a look-up leads to. -/
inductive Part where
  /-- A value. -/
  | value (v : Value)
  /-- The unit of a dimension. -/
  | unit (u : AxisUnit)
  /-- A mapping that cannot be changed. -/
  | frozen (entries : Mapping)
  /-- A tuple of parts. -/
  | parts (items : List Part)
  /-- A mapping from names to parts. -/
  | labelled (isFrozen : Bool) (entries : List (String × Part))
  /-- A class. -/
  | type (c : Class)
  /-- A class narrowed down by the class of its items. -/
  | narrowed (c : Class) (argument : Value)
  /-- An operation of a composed class, bound to its owner. -/
  | method (owner : Part) (origin : Class) (name : String)
  /-- An operation of a plain class, bound to its owner. -/
  | operation (owner : Part) (name : String)
  /-- A basic operation of a plain class, bound to its owner. -/
  | boundSlot (owner : Part) (origin : Class) (name : String)
  /-- A member of a class, bound to nothing. -/
  | member (binding : Binding) (origin : Class) (name : String)
  /-- An object that is known by its class and its text. -/
  | shown (c : Class) (text : String)

namespace Part

def ofText (s : String) : Part := .value (.str s)

def ofInt (n : Int) : Part := .value (.int n)

/-- The part that stands for the lack of one. -/
def absent : Part := .value .nothing

def classOf : Part → Class
  | value v => .ofValue v
  | unit _ => .unit
  | frozen _ => .frozen
  | parts _ => .tuple
  | labelled isFrozen _ => if isFrozen then .frozen else .mapping
  | type c => c.metaclass
  | narrowed .. => .narrowed
  | method .. => .method
  | operation .. => .operation
  | boundSlot .. => .boundSlot
  | member binding _ _ =>
    match binding with
    | .slot => .slot
    | .operation => .unboundOperation
    | .data => .dataSlot
    | .property => .property
    | .function => .function
    | _ => .operation
  | shown c _ => c

/-- The name of a part's class, as messages give it. -/
def typeName (p : Part) : String := p.classOf.label

/-- A class narrowed down, with what it is narrowed down by. -/
def narrowedText (c : Class) (argument : Value) : String := c.label ++ "[" ++ argument.quoted ++ "]"

/-- A member of a class under the name that it bears in printed forms. -/
def longName (origin : Class) (name : String) : String := origin.nameGiver.name ++ "." ++ name

/-- The printed form of a member of a class. -/
def memberText (binding : Binding) (origin : Class) (name : String) : String :=
  let ofObjects (what : String) :=
    "<" ++ what ++ " '" ++ name ++ "' of '" ++ origin.label ++ "' objects>"
  match binding with
  | .slot => ofObjects "slot wrapper"
  | .data => ofObjects "attribute"
  | .function => "<function " ++ longName origin name ++ ">"
  | .property => "<property object>"
  | _ => ofObjects "method"

mutual

/-- The text of a part, text in quotes. -/
def quoted? : Part → Except Fault String
  | value v => v.quoted?
  | unit u => .ok u.quoted
  | frozen entries => do return "mappingproxy(" ++ (← (Value.map entries).quoted?) ++ ")"
  | parts items => do return Value.tupleText (← quotedParts? items)
  | labelled isFrozen entries => do
    let text := Value.mapText (← quotedEntries? entries)
    return if isFrozen then "mappingproxy(" ++ text ++ ")" else text
  | type c => .ok c.shown
  | narrowed c argument => .ok (narrowedText c argument)
  | method owner origin name => do
    return "<bound method " ++ longName origin name ++ " of " ++ (← owner.quoted?) ++ ">"
  | operation owner name =>
    .ok ("<built-in method " ++ name ++ " of " ++ owner.typeName ++ " object>")
  | boundSlot owner _ name =>
    .ok ("<method-wrapper '" ++ name ++ "' of " ++ owner.typeName ++ " object>")
  | member binding origin name => .ok (memberText binding origin name)
  | shown _ text => .ok text

def quotedParts? : List Part → Except Fault (List String)
  | [] => .ok []
  | p :: rest => do
    let text ← quoted? p
    return text :: (← quotedParts? rest)

/-- The texts of the entries of a mapping from names to parts. -/
def quotedEntries? : List (String × Part) → Except Fault (List String)
  | [] => .ok []
  | (key, p) :: rest => do
    let text ← quoted? p
    return (Text.quote key ++ ": " ++ text) :: (← quotedEntries? rest)

end

/-- The text of a part, text as it is. -/
def display? : Part → Except Fault String
  | value v => v.display?
  | unit u => .ok ("Unit." ++ u.label)
  | frozen entries => (Value.map entries).quoted?
  | labelled _ entries => (labelled false entries).quoted?
  | p => p.quoted?

end Part

end ImageSizing.Template
