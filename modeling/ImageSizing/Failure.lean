import ImageSizing.Dimension.Unit
import ImageSizing.Engine.StepLimit
import ImageSizing.Files.Fault

/-!
# Failures

A failure is either a `SizingError`, a size that cannot be resolved or a misuse of the
registry, or a `Fault` of any other kind.  Each error names its cause; `message` gives its
text.  Custom functions may fail with faults of their own, but a sizing error comes only
from the engine.
-/

namespace ImageSizing

/-- Why a size could not be resolved, or a function not registered. -/
inductive SizingError where
  | malformedPair (raw separator : String)
  | invalidWidth (shown : String)
  | nothingSpecified (described : String)
  | exactNeedsBoth (described : String)
  | unresolved (described : String)
  | tooLarge (described : String)
  | negative (width height : Int)
  | notRelatable (unit : AxisUnit)
  | notAbsolute (unit : AxisUnit)
  | stepLimit (limit : StepLimit) (pending : Nat)
  | unnamedFunction (quoted : String)
  | builtInName (name : String)
  | notCallable (name : String)
deriving DecidableEq

/-- The three families of sizing errors. -/
inductive SizingKind where
  | validation
  | nonTermination
  | unknownFunction
deriving DecidableEq

namespace SizingError

/-- The line that describes the size in question. -/
def forSize (described : String) : String := "\n For size object: " ++ described

def message : SizingError → String
  | malformedPair raw sep => "Invalid size '" ++ raw ++ "': expected '<width>" ++ sep ++ "<height>'"
  | invalidWidth shown => "Invalid width '" ++ shown ++ "' specified"
  | nothingSpecified d =>
    "Invalid size object: please specify at least width or height" ++ forSize d
  | exactNeedsBoth d =>
    "When using exact sizing, both width and height have to be specified!" ++ forSize d
  | unresolved d => "Size object did not resolve to a width and a height" ++ forSize d
  | tooLarge d => "Size object resolved to a size too large to represent" ++ forSize d
  | negative w h =>
    "Size object resolved to a negative size " ++ Numeral.text w ++ "x" ++ Numeral.text h
  | notRelatable u => "Cannot relate a " ++ u.text ++ " dimension to the source size"
  | notAbsolute u => "Cannot resolve a " ++ u.text ++ " dimension to pixels"
  | stepLimit limit pending =>
    "Scaling functions did not terminate after " ++ limit.text ++ " steps ("
      ++ Numeral.text pending ++ " still queued)"
  | unnamedFunction q => "Size function names must be non-empty strings, got " ++ q
  | builtInName n => "Built-in size function '" ++ n ++ "' cannot be replaced"
  | notCallable n => "Size function '" ++ n ++ "' is not callable"

def kind : SizingError → SizingKind
  | stepLimit .. => .nonTermination
  | unnamedFunction _ | builtInName _ | notCallable _ => .unknownFunction
  | _ => .validation

end SizingError

/-- Any failure that is no sizing error. -/
inductive Fault where
  | arithmetic (fault : ArithmeticFault)
  | numberTooLong
  | numeralTooLong (digits : Nat)
  | operands (operator left right : String)
  | concatenation (sequence other : String)
  | repetition (typeName : String)
  | countTooLarge
  | textTooLong
  | outOfMemory
  | notOrdered (operator left right : String)
  | notReal (typeName : String)
  | unreadableDouble (quoted : String)
  | notDouble (typeName : String)
  | unknownUnit (quoted : String)
  | axisNotPositive (axis quoted : String)
  | notRealDimension (quoted : String)
  | missingAxis (axis : String)
  | notIterable (typeName : String)
  | notPath (typeName : String)
  | elementNotSequence (index : Nat)
  | elementLength (index length : Nat)
  | unhashable (typeName : String)
  | noAttribute (typeName name : String)
  | emptyQueue
  | nestedTooDeep
  | missingArgument (operation argument : String)
  | tooManyArguments (operation : String) (least most given : Nat)
  | raised (message : String)
  | badDefault (quoted : String)
  | emptySeparator
  | separatorType (typeName : String)
  | badLimit (shown : String)
  | template (fault : TemplateFault)
  | file (fault : FileFault)
  | output (fault : OutputFault)
deriving DecidableEq

namespace Fault

def message : Fault → String
  | arithmetic f => f.message
  | numberTooLong => "Exceeds the limit (4300 digits) for integer string conversion; "
      ++ "use sys.set_int_max_str_digits() to increase the limit"
  | numeralTooLong n => "Exceeds the limit (4300 digits) for integer string conversion: value has "
      ++ Numeral.text n ++ " digits; use sys.set_int_max_str_digits() to increase the limit"
  | operands op l r => "unsupported operand type(s) for " ++ op ++ ": '" ++ l ++ "' and '" ++ r ++ "'"
  | concatenation t o => "can only concatenate " ++ t ++ " (not \"" ++ o ++ "\") to " ++ t
  | repetition t => "can't multiply sequence by non-int of type '" ++ t ++ "'"
  | countTooLarge => "cannot fit 'int' into an index-sized integer"
  | textTooLong => "repeated string is too long"
  | outOfMemory => ""
  | notOrdered op l r =>
    "'" ++ op ++ "' not supported between instances of '" ++ l ++ "' and '" ++ r ++ "'"
  | notReal t => "must be real number, not " ++ t
  | unreadableDouble q => "could not convert string to float: " ++ q
  | notDouble t => "float() argument must be a string or a real number, not '" ++ t ++ "'"
  | unknownUnit q => q ++ " is not a valid Unit"
  | axisNotPositive a q => "Real " ++ a ++ " must be a positive number, got " ++ q
  | notRealDimension q => "Cannot read a real dimension from " ++ q
  | missingAxis a => Text.quote a
  | notPath t => "expected str, bytes or os.PathLike object, not " ++ t
  | notIterable t => "'" ++ t ++ "' object is not iterable"
  | elementNotSequence i =>
    "cannot convert dictionary update sequence element #" ++ Numeral.text i ++ " to a sequence"
  | elementLength i n => "dictionary update sequence element #" ++ Numeral.text i ++ " has length "
      ++ Numeral.text n ++ "; 2 is required"
  | unhashable t => "unhashable type: '" ++ t ++ "'"
  | noAttribute t a => "'" ++ t ++ "' object has no attribute '" ++ a ++ "'"
  | emptyQueue => "tuple index out of range"
  | nestedTooDeep => "maximum recursion depth exceeded"
  | missingArgument op a => op ++ "() missing 1 required positional argument: '" ++ a ++ "'"
  | tooManyArguments op least most given => op ++ "() takes from " ++ Numeral.text least ++ " to "
      ++ Numeral.text most ++ " positional arguments but " ++ Numeral.text given ++ " were given"
  | raised m => m
  | badDefault q => "default_function must be one of contain, cover, exact, check, got " ++ q
  | emptySeparator => "separator must not be empty"
  | separatorType t => "'in <string>' requires string as left operand, not " ++ t
  | badLimit n => "max_steps must be >= 1, got " ++ n
  | template f => f.message
  | file f => f.message
  | output f => f.message

def kind : Fault → FaultKind
  | arithmetic f => f.kind
  | operands .. | concatenation .. | repetition _ | notOrdered .. | notReal _ | notDouble _
  | notRealDimension _ | notIterable _ | notPath _ | elementNotSequence _ | unhashable _ | separatorType _
  | missingArgument .. | tooManyArguments .. => .type
  | countTooLarge | textTooLong => .overflow
  | outOfMemory => .memory
  | missingAxis _ => .key
  | noAttribute .. => .attribute
  | emptyQueue => .index
  | nestedTooDeep => .recursion
  | template f => f.kind
  | file f => f.kind
  | output f => f.kind
  | _ => .value

end Fault

/-- A failed operation. -/
inductive Failure where
  | sizing (error : SizingError)
  | fault (fault : Fault)
deriving DecidableEq

namespace Failure

def message : Failure → String
  | sizing e => e.message
  | fault f => f.message

def isSizing : Failure → Bool
  | sizing _ => true
  | fault _ => false

/-- Whether a failure is one of the file system or of reading a picture. -/
def isFromSystem : Failure → Bool
  | fault (.file f) => f.isFromSystem
  | _ => false

end Failure

/-- A sequence that comes to a result has one of its first part, from which it goes on. -/
theorem bind_eq_ok {ε α β : Type} {x : Except ε α} {f : α → Except ε β} {b : β}
    (h : x >>= f = .ok b) : ∃ a, x = .ok a ∧ f a = .ok b := by
  cases x with
  | ok a => exact ⟨a, rfl, h⟩
  | error e => cases h

end ImageSizing
