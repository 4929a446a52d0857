import ImageSizing.Template.Class.Basic

/-!
# Members of classes

What a class offers under which names, and how: bound to an object, bound to the class, or
as a part of each object.  A template can look members up, though it cannot run them.
-/

namespace ImageSizing.Template

/-- How a class offers a member. -/
inductive Binding where
  /-- One of the basic operations that all objects know, bound to an object. -/
  | slot
  /-- A further operation of a plain class, bound to an object. -/
  | operation
  /-- An operation that belongs to the class and not to its objects. -/
  | shared
  /-- The same, of the one class that brought it. -/
  | fixed
  /-- A part that every object of the class has. -/
  | data
  /-- An operation of a composed class, bound to an object. -/
  | function
  /-- An operation of a composed class that belongs to the class. -/
  | classFunction
  /-- A part of an object that is worked out. -/
  | property
  /-- An operation that the class does not let its objects have. -/
  | absent
deriving DecidableEq

namespace Class

/-- The operations that every class with named fields has. -/
def fieldOperations : List String :=
  ["__init__", "__repr__", "__eq__", "__setattr__", "__delattr__", "__hash__"]

/-- The members of a class with named fields. -/
def withFields (operations : List String) : List (Binding × List String) :=
  [(.function, fieldOperations ++ operations), (.data, ["__weakref__"])]

/-- The members of a class, those of its ancestors left out. -/
def members : Class → List (Binding × List String)
  | .dimension => withFields ["as_dict"]
      ++ [(.classFunction, ["pixel", "factor", "unspecified", "invalid"]),
        (.property, ["specified", "concrete"])]
  | .realDimension => withFields ["__post_init__"]
  | .pixelSize => withFields ["as_tuple", "as_dict"]
  | .sizeSpec => withFields ["__post_init__", "with_size", "then", "pop_step"]
  | .scalingStep => withFields ["__call__"]
  | .object => [
      (.slot, ["__delattr__", "__eq__", "__ge__", "__getattribute__", "__gt__", "__hash__",
        "__init__", "__le__", "__lt__", "__ne__", "__repr__", "__setattr__", "__str__"]),
      (.operation, ["__dir__", "__format__", "__getstate__", "__reduce__", "__reduce_ex__",
        "__sizeof__"]),
      (.shared, ["__init_subclass__", "__subclasshook__"]), (.fixed, ["__new__"]),
      (.data, ["__class__"])]
  | .type => [
      (.slot, ["__call__", "__delattr__", "__getattribute__", "__init__", "__or__", "__repr__",
        "__ror__", "__setattr__"]),
      (.operation, ["__dir__", "__instancecheck__", "__sizeof__", "__subclasscheck__",
        "__subclasses__", "mro"]),
      (.shared, ["__prepare__"]), (.fixed, ["__new__"]),
      (.data, ["__abstractmethods__", "__annotations__", "__base__", "__bases__",
        "__basicsize__", "__dict__", "__dictoffset__", "__doc__", "__flags__", "__itemsize__",
        "__module__", "__mro__", "__name__", "__qualname__", "__text_signature__",
        "__weakrefoffset__"])]
  | .nothing => [
      (.slot, ["__bool__", "__repr__"]),
      (.fixed, ["__new__"])]
  | .truth => [
      (.slot, ["__and__", "__or__", "__rand__", "__repr__", "__ror__", "__rxor__", "__xor__"]),
      (.fixed, ["__new__"])]
  | .integer => [
      (.slot, ["__abs__", "__add__", "__and__", "__bool__", "__divmod__", "__eq__", "__float__",
        "__floordiv__", "__ge__", "__getattribute__", "__gt__", "__hash__", "__index__",
        "__int__", "__invert__", "__le__", "__lshift__", "__lt__", "__mod__", "__mul__", "__ne__",
        "__neg__", "__or__", "__pos__", "__pow__", "__radd__", "__rand__", "__rdivmod__",
        "__repr__", "__rfloordiv__", "__rlshift__", "__rmod__", "__rmul__", "__ror__", "__rpow__",
        "__rrshift__", "__rshift__", "__rsub__", "__rtruediv__", "__rxor__", "__sub__",
        "__truediv__", "__xor__"]),
      (.operation, ["__ceil__", "__floor__", "__format__", "__getnewargs__", "__round__",
        "__sizeof__", "__trunc__", "as_integer_ratio", "bit_count", "bit_length", "conjugate",
        "to_bytes"]),
      (.shared, ["from_bytes"]), (.fixed, ["__new__"]),
      (.data, ["denominator", "imag", "numerator", "real"])]
  | .double => [
      (.slot, ["__abs__", "__add__", "__bool__", "__divmod__", "__eq__", "__float__",
        "__floordiv__", "__ge__", "__getattribute__", "__gt__", "__hash__", "__int__", "__le__",
        "__lt__", "__mod__", "__mul__", "__ne__", "__neg__", "__pos__", "__pow__", "__radd__",
        "__rdivmod__", "__repr__", "__rfloordiv__", "__rmod__", "__rmul__", "__rpow__",
        "__rsub__", "__rtruediv__", "__sub__", "__truediv__"]),
      (.operation, ["__ceil__", "__floor__", "__format__", "__getnewargs__", "__round__",
        "__trunc__", "as_integer_ratio", "conjugate", "hex", "is_integer"]),
      (.shared, ["__getformat__", "fromhex"]), (.fixed, ["__new__"]),
      (.data, ["imag", "real"])]
  | .text => [
      (.slot, ["__add__", "__contains__", "__eq__", "__ge__", "__getattribute__", "__getitem__",
        "__gt__", "__hash__", "__iter__", "__le__", "__len__", "__lt__", "__mod__", "__mul__",
        "__ne__", "__repr__", "__rmod__", "__rmul__", "__str__"]),
      (.operation, ["__format__", "__getnewargs__", "__sizeof__", "capitalize", "casefold",
        "center", "count", "encode", "endswith", "expandtabs", "find", "format", "format_map",
        "index", "isalnum", "isalpha", "isascii", "isdecimal", "isdigit", "isidentifier",
        "islower", "isnumeric", "isprintable", "isspace", "istitle", "isupper", "join", "ljust",
        "lower", "lstrip", "partition", "removeprefix", "removesuffix", "replace", "rfind",
        "rindex", "rjust", "rpartition", "rsplit", "rstrip", "split", "splitlines", "startswith",
        "strip", "swapcase", "title", "translate", "upper", "zfill"]),
      (.fixed, ["__new__", "maketrans"])]
  | .list => [
      (.slot, ["__add__", "__contains__", "__delitem__", "__eq__", "__ge__", "__getattribute__",
        "__gt__", "__iadd__", "__imul__", "__init__", "__iter__", "__le__", "__len__", "__lt__",
        "__mul__", "__ne__", "__repr__", "__rmul__", "__setitem__"]),
      (.operation, ["__getitem__", "__reversed__", "__sizeof__", "append", "clear", "copy",
        "count", "extend", "index", "insert", "pop", "remove", "reverse", "sort"]),
      (.shared, ["__class_getitem__"]), (.fixed, ["__new__"]),
      (.absent, ["__hash__"])]
  | .tuple => [
      (.slot, ["__add__", "__contains__", "__eq__", "__ge__", "__getattribute__", "__getitem__",
        "__gt__", "__hash__", "__iter__", "__le__", "__len__", "__lt__", "__mul__", "__ne__",
        "__repr__", "__rmul__"]),
      (.operation, ["__getnewargs__", "count", "index"]),
      (.shared, ["__class_getitem__"]), (.fixed, ["__new__"])]
  | .mapping => [
      (.slot, ["__delitem__", "__eq__", "__ge__", "__getattribute__", "__gt__", "__init__",
        "__ior__", "__iter__", "__le__", "__len__", "__lt__", "__ne__", "__or__", "__repr__",
        "__ror__", "__setitem__"]),
      (.operation, ["__contains__", "__getitem__", "__reversed__", "__sizeof__", "clear", "copy",
        "get", "items", "keys", "pop", "popitem", "setdefault", "update", "values"]),
      (.shared, ["__class_getitem__", "fromkeys"]), (.fixed, ["__new__"]),
      (.absent, ["__hash__"])]
  | .frozen => [
      (.slot, ["__contains__", "__eq__", "__ge__", "__getattribute__", "__getitem__", "__gt__",
        "__ior__", "__iter__", "__le__", "__len__", "__lt__", "__ne__", "__or__", "__repr__",
        "__ror__", "__str__"]),
      (.operation, ["__reversed__", "copy", "get", "items", "keys", "values"]),
      (.shared, ["__class_getitem__"]), (.fixed, ["__new__"]),
      (.absent, ["__hash__"])]
  | .unit => [
      (.data, ["__dict__", "__weakref__"]),
      (.function, ["__format__", "__new__", "__repr__", "__str__", "_generate_next_value_"])]
  | .enumerated => [
      (.data, ["__dict__", "__weakref__"]),
      (.function, ["__copy__", "__deepcopy__", "__dir__", "__format__", "__hash__", "__init__",
        "__new__", "__reduce_ex__", "__repr__", "__str__", "_generate_next_value_"]),
      (.classFunction, ["_missing_"])]
  | .enumeration => [
      (.function, ["__bool__", "__call__", "__contains__", "__delattr__", "__dir__",
        "__getattr__", "__getitem__", "__iter__", "__len__", "__new__", "__repr__",
        "__reversed__", "__setattr__", "_convert_", "_create_"]),
      (.classFunction, ["__prepare__", "_check_for_existing_members_", "_find_data_repr_",
        "_find_data_type_", "_find_new_", "_get_mixins_"])]
  | .function => [
      (.slot, ["__call__", "__get__", "__repr__"]),
      (.fixed, ["__new__"]),
      (.data, ["__annotations__", "__builtins__", "__closure__", "__code__",
        "__defaults__", "__dict__", "__doc__", "__globals__", "__kwdefaults__", "__module__",
        "__name__", "__qualname__"])]
  | .method => [
      (.slot, ["__call__", "__delattr__", "__eq__", "__ge__", "__getattribute__", "__gt__",
        "__hash__", "__le__", "__lt__", "__ne__", "__repr__", "__setattr__"]),
      (.operation, ["__reduce__"]),
      (.fixed, ["__new__"]),
      (.data, ["__doc__", "__func__", "__self__"])]
  | .operation => [
      (.slot, ["__call__", "__eq__", "__ge__", "__getattribute__", "__gt__", "__hash__",
        "__le__", "__lt__", "__ne__", "__repr__"]),
      (.operation, ["__reduce__"]),
      (.data, ["__doc__", "__module__", "__name__", "__qualname__", "__self__",
        "__text_signature__"])]
  | .boundSlot => [
      (.slot, ["__call__", "__eq__", "__ge__", "__getattribute__", "__gt__", "__hash__",
        "__le__", "__lt__", "__ne__", "__repr__"]),
      (.operation, ["__reduce__"]),
      (.data, ["__doc__", "__name__", "__objclass__", "__qualname__", "__self__",
        "__text_signature__"])]
  | .slot => [
      (.slot, ["__call__", "__get__", "__getattribute__", "__repr__"]),
      (.operation, ["__reduce__"]),
      (.data, ["__doc__", "__name__", "__objclass__", "__qualname__",
        "__text_signature__"])]
  | .unboundOperation => [
      (.slot, ["__call__", "__get__", "__getattribute__", "__repr__"]),
      (.operation, ["__reduce__"]),
      (.data, ["__doc__", "__name__", "__objclass__", "__qualname__",
        "__text_signature__"])]
  | .dataSlot => [
      (.slot, ["__delete__", "__get__", "__getattribute__", "__repr__", "__set__"]),
      (.data, ["__doc__", "__name__", "__objclass__", "__qualname__"])]
  | .narrowed => [
      (.slot, ["__call__", "__eq__", "__ge__", "__getattribute__", "__getitem__", "__gt__",
        "__hash__", "__iter__", "__le__", "__lt__", "__ne__", "__or__", "__repr__", "__ror__"]),
      (.operation, ["__dir__", "__instancecheck__", "__mro_entries__", "__reduce__",
        "__subclasscheck__"]),
      (.fixed, ["__new__"]),
      (.data, ["__args__", "__origin__", "__parameters__",
        "__typing_unpacked_tuple_args__", "__unpacked__"])]
  | _ => []

/-- How a class itself offers a name. -/
def ownBinding? (c : Class) (name : String) : Option Binding :=
  (c.members.find? fun m => m.2.contains name).map (·.1)

/-- The class whose name an operation bears; units take theirs from all enumerated classes. -/
def nameGiver : Class → Class
  | unit => enumerated
  | c => c

end Class

end ImageSizing.Template
