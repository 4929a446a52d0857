import ImageSizing.Template.Layout
import ImageSizing.Value.Shown

/-!
# What fields lead to

A field of a template leads to a value, or to an item of one.  It may also ask for an attribute,
and those are not up to this library: which attributes a value has, and what they are, is decided
by the language that templates are filled in.  So attributes are given as a function
(`Attributes`), and all that is known of what they lead to is how it is shown (`ForeignObject`).
-/

namespace ImageSizing.Template

/-- An object that is known by its two texts and by what is written of it in each layout. -/
structure ForeignObject where
  display : Except ForeignFault String
  quoted : Except ForeignFault String
  write : List Char → Except ForeignFault (List Char)

/-- What an attribute of a value leads to.  The attribute is given as the rest of the field's
name, with the dot before it and all look-ups that follow. -/
abbrev Attributes := Value → List Char → Except ForeignFault ForeignObject

/-- What a field leads to. -/
inductive Found where
  | value (v : Value)
  | object (o : ForeignObject)

def ofForeign {α : Type} (r : Except ForeignFault α) : Except Fault α :=
  r.mapError fun f => .template (.foreign f)

/-! ## Items -/

def itemAt {α : Type} (what : String) (items : List α) (i : Nat) : Except TemplateFault α :=
  match items[i]? with
  | some a => .ok a
  | none => .error (.outOfRange what)

def characterAt (s : String) (i : Nat) : Except TemplateFault String :=
  (itemAt "string" s.toList i).map String.singleton

/-- The entry of a mapping under a number. -/
def entryAt (entries : Mapping) (i : Nat) : Except TemplateFault Value :=
  match entries.find? fun e => e.1.sameKey (.int i) with
  | some e => .ok e.2
  | none => .error (.missingKey (Numeral.text i))

def entryUnder (entries : Mapping) (key : String) : Except TemplateFault Value :=
  match entries.get? key with
  | some v => .ok v
  | none => .error (.missingKey (Text.quote key))

def atIndex (v : Value) (i : Nat) : Except TemplateFault Value :=
  match v with
  | .str s => (characterAt s i).map .str
  | .list items => itemAt "list" items i
  | .tuple items => itemAt "tuple" items i
  | .map entries => entryAt entries i
  | v => .error (.notSubscriptable v.typeName)

def underKey (v : Value) (key : String) : Except TemplateFault Value :=
  match v with
  | .str _ => .error .textIndex
  | .list _ => .error (.sequenceIndex "list")
  | .tuple _ => .error (.sequenceIndex "tuple")
  | .map entries => entryUnder entries key
  | v => .error (.notSubscriptable v.typeName)

/-! ## Layouts -/

def ofLayout {α : Type} (r : Except LayoutFault α) : Except Fault α :=
  r.mapError fun f => .template (.layout f)

def writeText (layout : List Char) (s : String) : Except Fault (List Char) := do
  ofLayout ((← ofLayout (Layout.read layout .left (some 's') "str")).text s.toList)

def writeInteger (layout : List Char) (n : Int) (typeName : String) : Except Fault (List Char) := do
  let l ← ofLayout (Layout.read layout .right (some 'd') typeName)
  let written ← ofLayout (l.integer n typeName)
  if l.code.all ['d', 'n'].contains && !Numeral.printable n then .error .numberTooLong
  else return written

def writeDouble (layout : List Char) (x : Binary64) : Except Fault (List Char) := do
  ofLayout ((← ofLayout (Layout.read layout .right none "float")).double x)

/-- Writes a value by a layout; the empty layout asks for its text, and is the only one that
values other than texts and numbers take. -/
def writeValue (layout : List Char) (v : Value) : Except Fault (List Char) :=
  if layout.isEmpty then do return (← v.display?).toList
  else
    match v with
    | .str s => writeText layout s
    | .int n => writeInteger layout n "int"
    | .bool b => writeInteger layout (if b then 1 else 0) "bool"
    | .float x => writeDouble layout x
    | v => .error (.template (.layout (.unsupported v.typeName)))

namespace Found

/-- The text of what a field leads to, text as it is. -/
def display? : Found → Except Fault String
  | value v => v.display?
  | object o => ofForeign o.display

/-- The text of what a field leads to, text in quotes. -/
def quoted? : Found → Except Fault String
  | value v => v.quoted?
  | object o => ofForeign o.quoted

def write (layout : List Char) : Found → Except Fault (List Char)
  | value v => writeValue layout v
  | object o => ofForeign (o.write layout)

end Found

end ImageSizing.Template
