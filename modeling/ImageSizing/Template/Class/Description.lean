import ImageSizing.Template.Class.Basic

/-!
# Descriptions of classes

The text in which a class says what it is for, and the same for the operations of the
library's own classes.
-/

namespace ImageSizing.Template.Class

/-- Lines of text, one below the other. -/
def lines (ls : List String) : String := "\n".intercalate ls

def description? : Class → Option String
  | .object => some <| lines [
      "The base class of the class hierarchy.",
      "",
      "When called, it accepts no arguments and returns a new featureless",
      "instance that has no instance attributes and cannot be given any.",
      ""]
  | .type => some <| lines [
      "type(object) -> the object's type",
      "type(name, bases, dict, **kwds) -> a new type"]
  | .truth => some <| lines [
      "bool(x) -> bool",
      "",
      "Returns True when the argument x is true, False otherwise.",
      "The builtins True and False are the only two instances of the class bool.",
      "The class bool is a subclass of the class int, and cannot be subclassed."]
  | .integer => some <| lines [
      "int([x]) -> integer",
      "int(x, base=10) -> integer",
      "",
      "Convert a number or string to an integer, or return 0 if no arguments",
      "are given.  If x is a number, return x.__int__().  For floating point",
      "numbers, this truncates towards zero.",
      "",
      "If x is not a number or if base is given, then x must be a string,",
      "bytes, or bytearray instance representing an integer literal in the",
      "given base.  The literal can be preceded by '+' or '-' and be surrounded",
      "by whitespace.  The base defaults to 10.  Valid bases are 0 and 2-36.",
      "Base 0 means to interpret the base from the string as an integer literal.",
      ">>> int('0b100', base=0)",
      "4"]
  | .double => some "Convert a string or number to a floating point number, if possible."
  | .text => some <| lines [
      "str(object='') -> str",
      "str(bytes_or_buffer[, encoding[, errors]]) -> str",
      "",
      "Create a new string object from the given object. If encoding or",
      "errors is specified, then the object must expose a data buffer",
      "that will be decoded using the given encoding and error handler.",
      "Otherwise, returns the result of object.__str__() (if defined)",
      "or repr(object).",
      "encoding defaults to sys.getdefaultencoding().",
      "errors defaults to 'strict'."]
  | .list => some <| lines [
      "Built-in mutable sequence.",
      "",
      "If no argument is given, the constructor creates a new empty list.",
      "The argument must be an iterable if specified."]
  | .tuple => some <| lines [
      "Built-in immutable sequence.",
      "",
      "If no argument is given, the constructor returns an empty tuple.",
      "If iterable is specified the tuple is initialized from iterable's items.",
      "",
      "If the argument is a tuple, the return value is the same object."]
  | .mapping => some <| lines [
      "dict() -> new empty dictionary",
      "dict(mapping) -> new dictionary initialized from a mapping object's",
      "    (key, value) pairs",
      "dict(iterable) -> new dictionary initialized as if via:",
      "    d = \x7b\x7d",
      "    for k, v in iterable:",
      "        d[k] = v",
      "dict(**kwargs) -> new dictionary initialized with the name=value pairs",
      "    in the keyword argument list.  For example:  dict(one=1, two=2)"]
  | .dimension => some <| lines [
      "A single width or height, split into unit and value.",
      "",
      "    ``value`` is an int for pixels, a float for factors and ``None`` for",
      "    unspecified or invalid dimensions.",
      "    "]
  | .realDimension => some "Actual pixel size of a source asset, as reported by a probe."
  | .pixelSize => some "EffectiveDimension(width: int, height: int)"
  | .scalingStep =>
    some "One entry of the scaling queue: a built-in policy or a custom callable."
  | .sizeSpec => some <| lines [
      "A normalized size object.",
      "",
      "    ``functions`` is the pending queue, front first. Entries may still be",
      "    unresolved references (names or callables appended by a step); the",
      "    next normalization resolves them. ``original`` is the canonicalized",
      "    but unparsed input, captured once per calculation.",
      "    "]
  | .enumeration => some <| lines ["", "    Metaclass for Enum", "    "]
  | _ => none

def operationDescription? : Class → String → Option String
  | .sizeSpec, "then" =>
    some "Return a copy with ``refs`` appended to the end of the queue."
  | _, _ => none

end ImageSizing.Template.Class
