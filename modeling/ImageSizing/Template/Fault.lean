import ImageSizing.Number

/-!
# Faults in templates

Everything that can be wrong with a template: its braces and fields, the look-ups of a
field, and the layout that follows a colon.
-/

namespace ImageSizing

/-- What kind of failure a message reports.  A kind that only code from elsewhere knows has a
name, and tells whether it is a failure of the operating system. -/
inductive FaultKind where
  | value
  | type
  | key
  | index
  | overflow
  | division
  | attribute
  | recursion
  | memory
  | notFound
  | isDirectory
  | notDirectory
  | alreadyExists
  | notAnImage
  | system
  | other (name : String) (ofSystem : Bool)
deriving DecidableEq

namespace FaultKind

/-- Whether failures of a kind are those of the file system or of reading a picture. -/
def isFromSystem : FaultKind → Bool
  | notFound | isDirectory | notDirectory | alreadyExists | notAnImage | system => true
  | other _ ofSystem => ofSystem
  | _ => false

end FaultKind

/-- A failure of code that comes from elsewhere; its kind and its text are all that is known. -/
structure ForeignFault where
  kind : FaultKind
  message : String
deriving DecidableEq

namespace ArithmeticFault

def kind : ArithmeticFault → FaultKind
  | divisionByZero | floatDivisionByZero => .division
  | integerOfNaN => .value
  | _ => .overflow

end ArithmeticFault

/-- Why a value cannot be laid out as asked. -/
inductive LayoutFault where
  | tooManyDigits
  | missingPrecision
  | precisionTooBig
  | malformed (layout typeName : String)
  | bothSeparators
  | separatorNotAllowed (separator code : Char)
  | unknownCode (code : Char) (typeName : String)
  | signOnText
  | spaceOnText
  | zeroSignOnText
  | alternateOnText
  | signPaddingOnText
  | precisionOnInteger
  | zeroSignOnInteger
  | signOnCharacter
  | alternateOnCharacter
  | characterOutOfRange
  | characterTooLarge
  | unsupported (typeName : String)
  | arithmetic (fault : ArithmeticFault)
deriving DecidableEq

namespace LayoutFault

/-- A character as messages show it: itself from the exclamation mark up to a limit, else
the hexadecimal number of its code point. -/
def shownBelow (limit : Nat) (c : Char) : String :=
  if 32 < c.toNat && c.toNat < limit then String.singleton c
  else "\\x" ++ String.ofList (Nat.toDigits 16 c.toNat)

/-- A presentation code as messages show it. -/
def codeText (c : Char) : String := shownBelow 128 c

def message : LayoutFault → String
  | tooManyDigits => "Too many decimal digits in format string"
  | missingPrecision => "Format specifier missing precision"
  | precisionTooBig => "precision too big"
  | malformed layout t => "Invalid format specifier '" ++ layout ++ "' for object of type '" ++ t ++ "'"
  | bothSeparators => "Cannot specify both ',' and '_'."
  | separatorNotAllowed s c =>
    "Cannot specify '" ++ String.singleton s ++ "' with '" ++ codeText c ++ "'."
  | unknownCode c t => "Unknown format code '" ++ codeText c ++ "' for object of type '" ++ t ++ "'"
  | signOnText => "Sign not allowed in string format specifier"
  | spaceOnText => "Space not allowed in string format specifier"
  | zeroSignOnText => "Negative zero coercion (z) not allowed in string format specifier"
  | alternateOnText => "Alternate form (#) not allowed in string format specifier"
  | signPaddingOnText => "'=' alignment not allowed in string format specifier"
  | precisionOnInteger => "Precision not allowed in integer format specifier"
  | zeroSignOnInteger => "Negative zero coercion (z) not allowed in integer format specifier"
  | signOnCharacter => "Sign not allowed with integer format specifier 'c'"
  | alternateOnCharacter => "Alternate form (#) not allowed with integer format specifier 'c'"
  | characterOutOfRange => "%c arg not in range(0x110000)"
  | characterTooLarge => "Python int too large to convert to C long"
  | unsupported t => "unsupported format string passed to " ++ t ++ ".__format__"
  | arithmetic f => f.message

def kind : LayoutFault → FaultKind
  | characterOutOfRange | characterTooLarge => .overflow
  | unsupported _ => .type
  | arithmetic f => f.kind
  | _ => .value

end LayoutFault

/-- Why a template cannot be filled. -/
inductive TemplateFault where
  | loneOpen
  | loneClose
  | unclosedField
  | unclosedLayout
  | openInField
  | missingConversion
  | conversionNotLast
  | unknownConversion (code : Char)
  | emptyPart
  | unclosedIndex
  | afterIndex
  | indexTooLong
  | tooDeep
  | noPositional (index : Nat)
  | unknownField (quotedName : String)
  | noAttribute (typeName name : String)
  | noTypeAttribute (typeName name : String)
  | noMember (name : String)
  | outOfRange (what : String)
  | textIndex
  | sequenceIndex (what : String)
  | notSubscriptable (typeName : String)
  | typeNotSubscriptable (typeName : String)
  | notGeneric (shown : String)
  | missingKey (quotedKey : String)
  | layout (fault : LayoutFault)
  | foreign (fault : ForeignFault)
deriving DecidableEq

namespace TemplateFault

def message : TemplateFault → String
  | loneOpen => "Single '\x7b' encountered in format string"
  | loneClose => "Single '\x7d' encountered in format string"
  | unclosedField => "expected '\x7d' before end of string"
  | unclosedLayout => "unmatched '\x7b' in format spec"
  | openInField => "unexpected '\x7b' in field name"
  | missingConversion => "end of string while looking for conversion specifier"
  | conversionNotLast => "expected ':' after conversion specifier"
  | unknownConversion c => "Unknown conversion specifier " ++ LayoutFault.shownBelow 127 c
  | emptyPart => "Empty attribute in format string"
  | unclosedIndex => "Missing ']' in format string"
  | afterIndex => "Only '.' or '[' may follow ']' in format field specifier"
  | indexTooLong => "Too many decimal digits in format string"
  | tooDeep => "Max string recursion exceeded"
  | noPositional n =>
    "Replacement index " ++ Numeral.text n ++ " out of range for positional args tuple"
  | unknownField q => q
  | noAttribute t a => "'" ++ t ++ "' object has no attribute '" ++ a ++ "'"
  | noTypeAttribute t a => "type object '" ++ t ++ "' has no attribute '" ++ a ++ "'"
  | noMember a => a
  | outOfRange what => what ++ " index out of range"
  | textIndex => "string indices must be integers, not 'str'"
  | sequenceIndex what => what ++ " indices must be integers or slices, not str"
  | notSubscriptable t => "'" ++ t ++ "' object is not subscriptable"
  | typeNotSubscriptable t => "type '" ++ t ++ "' is not subscriptable"
  | notGeneric s => s ++ " is not a generic class"
  | missingKey q => q
  | layout f => f.message
  | foreign f => f.message

def kind : TemplateFault → FaultKind
  | noPositional _ | outOfRange _ => .index
  | unknownField _ | missingKey _ => .key
  | noAttribute .. | noTypeAttribute .. | noMember _ => .attribute
  | textIndex | sequenceIndex _ | notSubscriptable _ | typeNotSubscriptable _
  | notGeneric _ => .type
  | layout f => f.kind
  | foreign f => f.kind
  | _ => .value

end TemplateFault

end ImageSizing
