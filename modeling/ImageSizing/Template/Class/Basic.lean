import ImageSizing.Value.Basic

/-!
# Classes

A template can ask a value for its class, and the class for its name, for the module that it
is shown under and for the classes above it.  The classes are a closed list; one that is
known by its name alone is `Class.other`.  Look-ups in a class go through `Class.ancestry`,
which starts with the class itself and ends with the class of all objects.
-/

namespace ImageSizing.Template

/-- The classes of what a template can name. -/
inductive Class where
  | object
  | type
  | nothing
  | truth
  | integer
  | double
  | text
  | list
  | tuple
  | mapping
  | frozen
  | dimension
  | realDimension
  | pixelSize
  | sizeSpec
  | scalingStep
  | unit
  | enumerated
  | enumeration
  | function
  | method
  | operation
  | boundSlot
  | slot
  | unboundOperation
  | dataSlot
  | property
  | narrowed
  | other (home name : String)
deriving DecidableEq

namespace Class

/-! ## Names -/

def ofValue : Value → Class
  | .nothing => nothing
  | .bool _ => truth
  | .int _ => integer
  | .float _ => double
  | .str _ => text
  | .list _ => list
  | .tuple _ => tuple
  | .map _ => mapping
  | .dim .. => dimension
  | .real _ => realDimension
  | .pixels _ => pixelSize
  | .spec .. => sizeSpec
  | .step _ => scalingStep
  | .callable c => other "__main__" (Value.callable c).typeName
  | .foreign => other "__main__" Value.foreign.typeName

/-- The name of a class, as messages give it. -/
def label : Class → String
  | object => "object"
  | type => "type"
  | nothing => "NoneType"
  | truth => "bool"
  | integer => "int"
  | double => "float"
  | text => "str"
  | list => "list"
  | tuple => "tuple"
  | mapping => "dict"
  | frozen => "mappingproxy"
  | dimension => "Dimension"
  | realDimension => "RealDimension"
  | pixelSize => "EffectiveDimension"
  | sizeSpec => "SizeSpec"
  | scalingStep => "ScalingStep"
  | unit => "Unit"
  | enumerated => "Enum"
  | enumeration => "EnumType"
  | function => "function"
  | method => "method"
  | operation => "builtin_function_or_method"
  | boundSlot => "method-wrapper"
  | slot => "wrapper_descriptor"
  | unboundOperation => "method_descriptor"
  | dataSlot => "getset_descriptor"
  | property => "property"
  | narrowed => "types.GenericAlias"
  | other _ name => name

/-- The class of a value bears the name of the value's type. -/
theorem label_ofValue (v : Value) : (ofValue v).label = v.typeName := by
  cases v <;> rfl

/-- The name of a class without that of its module. -/
def name : Class → String
  | narrowed => "GenericAlias"
  | c => c.label

/-- Whether a class is one of the library's own, whose objects have named fields. -/
def isOwn : Class → Bool
  | dimension | realDimension | pixelSize | sizeSpec | scalingStep => true
  | _ => false

/-- The module of the classes that need no module to be found. -/
def builtInHome : String := "builtins"

/-- The module that a class is shown under. -/
def home : Class → String
  | unit | dimension | realDimension | pixelSize | sizeSpec | scalingStep => "respsize.core.models"
  | enumerated | enumeration => "enum"
  | narrowed => "types"
  | other home _ => home
  | _ => builtInHome

def shown : Class → String
  | unit => "<enum 'Unit'>"
  | enumerated => "<enum 'Enum'>"
  | c =>
    if c.home = builtInHome then "<class '" ++ c.label ++ "'>"
    else "<class '" ++ c.home ++ "." ++ c.name ++ "'>"

/-! ## Ancestry -/

/-- The classes right above a class. -/
def parents : Class → List Class
  | object => []
  | truth => [integer]
  | unit => [text, enumerated]
  | enumeration => [type]
  | _ => [object]

/-- A class and those above it, in the order of look-ups. -/
def ancestry : Class → List Class
  | object => [object]
  | truth => [truth, integer, object]
  | unit => [unit, text, enumerated, object]
  | enumeration => [enumeration, type, object]
  | c => [c, object]

/-- Look-ups in a class start with the class itself. -/
theorem head?_ancestry (c : Class) : c.ancestry.head? = some c := by
  cases c <;> rfl

/-- Look-ups in a class go on to the classes right above it. -/
theorem parents_subset_ancestry (c : Class) : c.parents ⊆ c.ancestry := by
  cases c <;> simp [parents, ancestry]

def metaclass : Class → Class
  | unit | enumerated => enumeration
  | _ => type

/-- Whether a class can be narrowed down by the classes of its items. -/
def isGeneric : Class → Bool
  | type | list | tuple | mapping | frozen => true
  | _ => false

end Class

end ImageSizing.Template
