import ImageSizing.Value.Basic
import ImageSizing.Text.Quoted

/-!
# Printed values

The one-line text of a value as it appears in messages.  `Value.quoted` quotes text at
every depth; `Value.display` differs from it on text alone, which it shows as it is.  Whole
numbers beyond the digit limit have no text: `Value.printable` looks for them at every
depth, and `Value.quoted?` and `Value.display?` refuse values that hold one.
-/

namespace ImageSizing

def AxisUnit.quoted (u : AxisUnit) : String :=
  "<Unit." ++ u.label ++ ": " ++ Text.quote u.text ++ ">"

/-- The printed form of what a step does. -/
def Action.text : Action → String
  | .builtIn p => "<fn " ++ p.name ++ ">"
  | .custom c => c.text

namespace Step

/-- A step of a given name, written out around the text of what it calls. -/
def textAround (name func : String) (isBuiltIn : Bool) : String :=
  "ScalingStep(name=" ++ Text.quote name ++ ", func=" ++ func ++ ", builtin="
    ++ (if isBuiltIn then "True" else "False") ++ ")"

/-- The printed form of a step with the given names within it. -/
def textWithin (a : Action) (name : String) : List String → String
  | [] => textAround name a.text (isBuiltIn ⟨name, a, []⟩)
  | n :: inner => textAround name (textWithin a n inner) false

def text (s : Step) : String := textWithin s.action s.name s.inner

end Step

namespace Value

/-- Items between brackets; a lone item of a tuple is followed by a comma. -/
def tupleText : List String → String
  | [t] => "(" ++ t ++ ",)"
  | ts => "(" ++ ", ".intercalate ts ++ ")"

/-- Entries between braces. -/
def mapText (ts : List String) : String := "\x7b" ++ ", ".intercalate ts ++ "\x7d"

mutual

/-- The text of a value, with text in quotes. -/
def quoted : Value → String
  | .nothing => "None"
  | .bool b => if b then "True" else "False"
  | .int n => Numeral.text n
  | .float x => x.text
  | .str s => Text.quote s
  | .list items => "[" ++ ", ".intercalate (quotedItems items) ++ "]"
  | .tuple items => tupleText (quotedItems items)
  | .map entries => mapText (quotedEntries entries)
  | .dim u v => "Dimension(unit=" ++ u.quoted ++ ", value=" ++ quoted v ++ ")"
  | .real r => "RealDimension(width=" ++ r.width.text ++ ", height=" ++ r.height.text ++ ")"
  | .pixels p => "EffectiveDimension(width=" ++ Numeral.text p.width ++ ", height="
      ++ Numeral.text p.height ++ ")"
  | .spec w h fs o e => "SizeSpec(width=" ++ quoted w ++ ", height=" ++ quoted h
      ++ ", functions=" ++ tupleText (quotedItems fs)
      ++ ", original=mappingproxy(" ++ mapText (quotedEntries o)
      ++ "), extras=mappingproxy(" ++ mapText (quotedEntries e) ++ "))"
  | .step s => s.text
  | .callable c => c.text
  | .foreign => "<opaque>"

def quotedItems : List Value → List String
  | [] => []
  | v :: rest => quoted v :: quotedItems rest

def quotedEntries : List (Value × Value) → List String
  | [] => []
  | (k, v) :: rest => (quoted k ++ ": " ++ quoted v) :: quotedEntries rest

end

/-- The text of a value, with text shown as it is. -/
def display : Value → String
  | .str s => s
  | v => v.quoted

mutual

/-- Whether every whole number in a value is short enough to be printed. -/
def printable : Value → Bool
  | .int n => Numeral.printable n
  | .list items => printableItems items
  | .tuple items => printableItems items
  | .map entries => printableEntries entries
  | .dim _ v => printable v
  | .real r => r.width.printable && r.height.printable
  | .pixels p => Numeral.printable p.width && Numeral.printable p.height
  | .spec w h fs o e => printable w && printable h && printableItems fs && printableEntries o
      && printableEntries e
  | _ => true

def printableItems : List Value → Bool
  | [] => true
  | v :: rest => printable v && printableItems rest

def printableEntries : List (Value × Value) → Bool
  | [] => true
  | (k, v) :: rest => printable k && printable v && printableEntries rest

end

end Value

end ImageSizing
