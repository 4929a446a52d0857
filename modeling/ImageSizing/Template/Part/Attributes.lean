import ImageSizing.Template.Basic
import ImageSizing.Template.Part.Lookup

/-!
# Attributes that are written out

`Part.attributes` are the attributes of the values of this library, and those of their classes as
far as they are written out: many are, and others are reported as missing.  They are meant for
running templates; nothing that is proved of templates in general rests on them.
-/

namespace ImageSizing.Template.Part

/-- Writes a part by a layout; the empty layout asks for its text. -/
def write (layout : List Char) (p : Part) : Except Fault (List Char) :=
  if layout.isEmpty then do return (← p.display?).toList
  else
    match p with
    | value v => writeValue layout v
    | unit u => writeText layout ("Unit." ++ u.label)
    | p => .error (.template (.layout (.unsupported p.typeName)))

def follow (p : Part) : Lookup → Except TemplateFault Part
  | .byName name => p.named (String.ofList name)
  | .byIndex index => do
    match ← indexOf? index with
    | some i => p.atIndex i
    | none => p.underKey (String.ofList index)

/-- Follows the look-ups in a text, of which each takes at least one character. -/
def followAll : Nat → Part → List Char → Except TemplateFault Part
  | 0, p, _ => .ok p
  | _, p, [] => .ok p
  | fuel + 1, p, cs => do
    let (lookup, rest) ← takeLookup cs
    followAll fuel (← p.follow lookup) rest

def toForeign {α : Type} (r : Except Fault α) : Except ForeignFault α :=
  r.mapError fun f => ⟨f.kind, f.message⟩

def object (p : Part) : ForeignObject :=
  ⟨toForeign p.display?, toForeign p.quoted?, fun layout => toForeign (p.write layout)⟩

/-- The attributes that are written out. -/
def attributes : Attributes := fun v lookups =>
  match followAll lookups.length (.value v) lookups with
  | .ok p => .ok p.object
  | .error f => .error ⟨f.kind, f.message⟩

end ImageSizing.Template.Part
