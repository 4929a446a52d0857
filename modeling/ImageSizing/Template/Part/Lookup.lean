import ImageSizing.Dimension.Basic
import ImageSizing.Template.Class.Description
import ImageSizing.Template.Found
import ImageSizing.Template.Part.Basic

/-!
# Look-ups

The look-ups of a template into a part: `Part.named` by name, `Part.atIndex` by number and
`Part.underKey` by text.  A name is looked up among the part's own fields first, then along
the ancestry of its class, where the nearest class wins.
-/

namespace ImageSizing.Template

/-- What a class offers under a name: a part that all its objects share, or a member that
is bound when it is looked up. -/
inductive Offer where
  | part (p : Part)
  | bound (binding : Binding) (origin : Class)

namespace Part

/-! ## Fields -/

def unitLabelled? (label : String) : Option Part :=
  (AxisUnit.all.find? fun u => u.label == label).map .unit

def unitsByLabel : List (String × Part) := AxisUnit.all.map fun u => (u.label, .unit u)

def unitFields (u : AxisUnit) : List (String × Part) := [
  ("_value_", ofText u.text),
  ("_name_", ofText u.label),
  ("__objclass__", .type .unit),
  ("_sort_order_", ofInt (AxisUnit.all.idxOf u))]

/-- What a step calls, as a part. -/
def calledPart (s : Step) : Part :=
  match s.inner, s.action with
  | name :: inner, a => .value (.step ⟨name, a, inner⟩)
  | [], .custom c => .value (.callable c)
  | [], .builtIn p => .shown (.other "functools" "partial") ("functools.partial(" ++ p.name ++ ")")

/-- The fields that an object of one of the library's own classes holds. -/
def fields : Value → List (String × Part)
  | .dim u v => [("unit", .unit u), ("value", .value v)]
  | .real r => [("width", .value (.ofNumber r.width)), ("height", .value (.ofNumber r.height))]
  | .pixels p => [("width", ofInt p.width), ("height", ofInt p.height)]
  | .spec w h fs o e => [("width", .value w), ("height", .value h),
      ("functions", .value (.tuple fs)), ("original", .frozen o), ("extras", .frozen e)]
  | .step s => [("name", ofText s.name), ("func", calledPart s),
      ("builtin", .value (.bool s.isBuiltIn))]
  | _ => []

def fieldIn? (entries : List (String × Part)) (name : String) : Option Part :=
  (entries.find? fun e => e.1 == name).map (·.2)

/-- The part of a whole number under a name. -/
def ofIntNamed? (n : Int) : String → Option Part
  | "real" => some (ofInt n)
  | "imag" => some (ofInt 0)
  | "numerator" => some (ofInt n)
  | "denominator" => some (ofInt 1)
  | _ => none

/-- The part of a value that it works out under a name. -/
def workedOut? : Value → String → Option Part
  | .bool b, name => ofIntNamed? (if b then 1 else 0) name
  | .int n, name => ofIntNamed? n name
  | .float x, "real" => some (.value (.float x))
  | .float _, "imag" => some (.value (.float (.zero false)))
  | .dim u v, "specified" => some (.value (.bool (Dimension.mk u v).isSpecified))
  | .dim u v, "concrete" => some (.value (.bool (Dimension.mk u v).isConcrete))
  | .callable c, "__name__" => c.name.map ofText
  | _, _ => none

/-- What every object with fields has: the mapping of its fields, and no reference to it. -/
def ofFields? (entries : List (String × Part)) : String → Option Part
  | "__dict__" => some (.labelled false entries)
  | "__weakref__" => some absent
  | name => fieldIn? entries name

def ofValueNamed? (v : Value) (name : String) : Option Part :=
  (workedOut? v name).or
    (if (Class.ofValue v).isOwn then ofFields? (fields v) name else none)

def ofUnitNamed? (u : AxisUnit) : String → Option Part
  | "value" => some (ofText u.text)
  | "name" => some (ofText u.label)
  | name => ofFields? (unitFields u) name

def ofMethodNamed? (owner : Part) (origin : Class) (operationName : String) : String → Option Part
  | "__name__" => some (ofText operationName)
  | "__qualname__" => some (ofText (longName origin operationName))
  | "__module__" => some (ofText origin.nameGiver.home)
  | "__doc__" => some ((origin.operationDescription? operationName).elim absent ofText)
  | "__self__" => some owner
  | "__func__" => some (.member .function origin operationName)
  | _ => none

/-- The part of an operation of a plain class under a name of its own. -/
def ofOperationNamed? (owner : Part) (operationName : String) : String → Option Part
  | "__name__" => some (ofText operationName)
  | "__qualname__" =>
    match owner with
    | type c => some (ofText (c.name ++ "." ++ operationName))
    | p => some (ofText (p.classOf.name ++ "." ++ operationName))
  | "__module__" => some absent
  | "__self__" => some owner
  | _ => none

def ofMemberNamed? (binding : Binding) (origin : Class) (memberName : String) :
    String → Option Part
  | "__name__" => if binding = .property then none else some (ofText memberName)
  | "__qualname__" =>
    if binding = .property then none else some (ofText (longName origin memberName))
  | "__objclass__" =>
    if binding = .property || binding = .function then none else some (type origin)
  | "__module__" => if binding = .function then some (ofText origin.nameGiver.home) else none
  | "__doc__" =>
    if binding = .function then
      some ((origin.operationDescription? memberName).elim absent ofText)
    else none
  | _ => none

def ownNamed? (p : Part) (name : String) : Option Part :=
  match p with
  | value v => ofValueNamed? v name
  | unit u => ofUnitNamed? u name
  | method owner origin n => ofMethodNamed? owner origin n name
  | operation owner n => ofOperationNamed? owner n name
  | boundSlot owner origin n =>
    if name = "__self__" then some owner else ofMemberNamed? .slot origin n name
  | member binding origin n => ofMemberNamed? binding origin n name
  | _ => none

/-! ## Classes -/

/-- A type that a field is meant to have, written out. -/
def hint (kind text : String) : Part := .shown (.other "typing" kind) text

def mappingHint : Part := hint "_SpecialGenericAlias" "typing.Mapping"

/-- The type of a custom function, written out. -/
def callableText : String := "typing.Callable[..., typing.Any]"

/-- The fields of a class with the types that they are meant to have. -/
def fieldTypes : Class → List (String × Part)
  | .dimension => [("unit", .type .unit),
      ("value", hint "_UnionGenericAlias" "typing.Optional[float]")]
  | .realDimension => [("width", .type .double), ("height", .type .double)]
  | .pixelSize => [("width", .type .integer), ("height", .type .integer)]
  | .scalingStep => [("name", .type .text), ("func", hint "_CallableGenericAlias" callableText),
      ("builtin", .type .truth)]
  | .sizeSpec => [("width", .type .dimension), ("height", .type .dimension),
      ("functions", hint "_GenericAlias" ("typing.Tuple[typing.Union[str, " ++ callableText ++ ", "
        ++ Class.home .scalingStep ++ "." ++ Class.name .scalingStep ++ "], ...]")),
      ("original", mappingHint), ("extras", mappingHint)]
  | _ => []

/-- How a class with fields came to be: its objects cannot be changed and have no order. -/
def recordParameters : Part :=
  .shown (.other "dataclasses" "_DataclassParams")
    "_DataclassParams(init=True,repr=True,eq=True,order=False,unsafe_hash=False,frozen=True)"

/-- What a class with fields shares with its objects. -/
def ofRecordClass? (c : Class) : String → Option Part
  | "__match_args__" => some (.value (.tuple ((fieldTypes c).map fun f => .str f.1)))
  | "__annotations__" => some (.labelled false (fieldTypes c))
  | "__dataclass_params__" => some recordParameters
  | _ => none

def ofUnitClass? : String → Option Part
  | "_member_map_" => some (.labelled false unitsByLabel)
  | "_value2member_map_" =>
    some (.labelled false (AxisUnit.all.map fun u => (u.text, .unit u)))
  | "_member_names_" => some (.value (.list (AxisUnit.all.map fun u => .str u.label)))
  | "_member_type_" => some (.type .text)
  | "_use_args_" => some (.value (.bool true))
  | "_unhashable_values_" => some (.value (.list []))
  | name => unitLabelled? name

/-- What a class shares with its objects under a name. -/
def sharedBy? (c : Class) (name : String) : Option Part :=
  if name = "__doc__" then some (c.description?.elim absent ofText)
  else
    match c, name with
    | .dimension, "value" => some absent
    | .scalingStep, "builtin" => some (.value (.bool false))
    | .sizeSpec, "functions" => some (.value (.tuple []))
    | .unit, "__module__" => some (ofText (Class.home .unit))
    | .unit, name => ofUnitClass? name
    | .other home _, "__module__" => some (ofText home)
    | c, name =>
      if c.isOwn then
        if name = "__module__" then some (ofText c.home) else ofRecordClass? c name
      else none

/-- What a class offers under a name: the nearest offer of its ancestry. -/
def offered? (c : Class) (name : String) : Option Offer :=
  c.ancestry.findSome? fun origin =>
    ((sharedBy? origin name).map .part).or ((origin.ownBinding? name).map (.bound · origin))

/-- What an offer comes to for an object of the class. -/
def bind? (p : Part) (name : String) : Offer → Option Part
  | .part q => some q
  | .bound .slot origin => some (.boundSlot p origin name)
  | .bound .operation _ => some (.operation p name)
  | .bound .shared _ => some (.operation (.type p.classOf) name)
  | .bound .fixed origin => some (.operation (.type origin) name)
  | .bound .function origin => some (.method p origin name)
  | .bound .classFunction origin => some (.method (.type p.classOf) origin name)
  | .bound .absent _ => some absent
  | .bound .data _ => none
  | .bound .property _ => none

/-- What an offer comes to for the class itself. -/
def ofOffer (c : Class) (name : String) : Offer → Part
  | .part q => q
  | .bound .shared _ => .operation (.type c) name
  | .bound .fixed origin => .operation (.type origin) name
  | .bound .classFunction origin => .method (.type c) origin name
  | .bound .absent _ => absent
  | .bound binding origin => .member binding origin name

/-- What a class tells about itself. -/
def ofClassItself? (c : Class) : String → Option Part
  | "__name__" => some (ofText c.name)
  | "__qualname__" => some (ofText c.name)
  | "__module__" => some (ofText c.home)
  | "__doc__" => sharedBy? c "__doc__"
  | "__mro__" => some (.parts (c.ancestry.map .type))
  | "__bases__" => some (.parts (c.parents.map .type))
  | "__base__" => some (c.parents.head?.elim absent .type)
  | "__text_signature__" => some absent
  | "__members__" =>
    match c with
    | .unit => some (.labelled true unitsByLabel)
    | .enumerated => some (.labelled true [])
    | _ => none
  | _ => none

def ofClassNamed (c : Class) (name : String) : Except TemplateFault Part :=
  let found := (ofClassItself? c name).or <| ((offered? c name).map (ofOffer c name)).or <|
    (offered? c.metaclass name).bind ((type c).bind? name)
  match found with
  | some p => .ok p
  | none =>
    .error (if c.metaclass = .enumeration then .noMember name else .noTypeAttribute c.label name)

/-! ## Look-ups by name -/

/-- The part of any part but a class under a name. -/
def ofObjectNamed? (p : Part) (name : String) : Option Part :=
  (p.ownNamed? name).or ((offered? p.classOf name).bind (p.bind? name))

/-- The names that a class narrowed down does not pass on to the class. -/
def isNarrowing (name : String) : Bool :=
  ["__copy__", "__deepcopy__", "__mro_entries__", "__reduce__", "__reduce_ex__"].contains name

/-- The part of a class narrowed down under a name. -/
def ofNarrowedNamed (c : Class) (argument : Value) (name : String) :
    Except TemplateFault Part :=
  if name = "__origin__" then .ok (type c)
  else if name = "__args__" then .ok (.value (.tuple [argument]))
  else if name = "__parameters__" then .ok (.value (.tuple []))
  else if name = "__unpacked__" then .ok (.value (.bool false))
  else if isNarrowing name then
    match ofObjectNamed? (narrowed c argument) name with
    | some p => .ok p
    | none => .error (.noAttribute (Class.label .narrowed) name)
  else ofClassNamed c name

/-- The class whose lack of a name is reported for a part: bound operations pass names on to
the operation. -/
def reportedClass (p : Part) : Class :=
  match p with
  | method .. => .function
  | p => p.classOf

def named (p : Part) (name : String) : Except TemplateFault Part :=
  if name = "__class__" then .ok (type p.classOf)
  else
    match p with
    | type c => ofClassNamed c name
    | narrowed c argument => ofNarrowedNamed c argument name
    | p =>
      match ofObjectNamed? p name with
      | some q => .ok q
      | none => .error (.noAttribute p.reportedClass.label name)

/-! ## Look-ups by index -/

/-- The entry of a mapping from names to parts under a text. -/
def labelledUnder (entries : List (String × Part)) (key : String) : Except TemplateFault Part :=
  match fieldIn? entries key with
  | some p => .ok p
  | none => .error (.missingKey (Text.quote key))

/-- The part under an index of a part that has no items: classes can be narrowed down. -/
def subscript (p : Part) (index : Value) : Except TemplateFault Part :=
  match p with
  | type c => if c.isGeneric then .ok (narrowed c index) else .error (.typeNotSubscriptable c.label)
  | narrowed c argument => .error (.notGeneric (narrowedText c argument))
  | p => .error (.notSubscriptable p.typeName)

def atIndex (p : Part) (i : Nat) : Except TemplateFault Part :=
  match p with
  | value v => (Template.atIndex v i).map .value
  | unit u => (characterAt u.text i).map ofText
  | frozen entries => (entryAt entries i).map .value
  | parts items => itemAt "tuple" items i
  | labelled .. => .error (.missingKey (Numeral.text i))
  | type .unit => .error (.missingKey (Numeral.text i))
  | type .enumerated => .error (.missingKey (Numeral.text i))
  | p => p.subscript (.int i)

/-- The part of a part under a text in brackets. -/
def underKey (p : Part) (key : String) : Except TemplateFault Part :=
  match p with
  | value v => (Template.underKey v key).map .value
  | unit _ => .error .textIndex
  | frozen entries => (entryUnder entries key).map .value
  | parts _ => .error (.sequenceIndex "tuple")
  | labelled _ entries => labelledUnder entries key
  | type .unit => labelledUnder unitsByLabel key
  | type .enumerated => labelledUnder [] key
  | p => p.subscript (.str key)

end Part

end ImageSizing.Template
