import ImageSizing.Template.Fault
import ImageSizing.Text.DecimalDigit

/-!
# Layouts

A layout says how a value is written into a field: fill and alignment, sign, width,
separators between groups of digits, precision, and a presentation code.  `Layout.read`
reads its text; `Layout.text`, `Layout.integer` and `Layout.double` apply it.
-/

namespace ImageSizing

/-- Where the padding of a field goes. -/
inductive Alignment where
  | left
  | right
  | centre
  | afterSign
deriving DecidableEq

namespace Alignment

/-- The alignment that a character stands for. -/
def ofChar? : Char → Option Alignment
  | '<' => some left
  | '>' => some right
  | '^' => some centre
  | '=' => some afterSign
  | _ => none

end Alignment

/-- How a value is written into a field. -/
structure Layout where
  fill : Char
  align : Alignment
  sign : Option Char
  zeroSign : Bool
  alternate : Bool
  width : Option Nat
  separator : Option Char
  precision : Option Nat
  code : Option Char

namespace Layout

/-! ## Reading -/

/-- The greatest width or precision that can be written. -/
def countLimit : Nat := 9223372036854775807

/-- The number at the start of a text, and the rest. -/
def takeNumber (cs : List Char) : Except LayoutFault (Option Nat × List Char) :=
  let isDigit := fun c => (Text.digitValue? c).isSome
  let digits := cs.takeWhile isDigit
  let n := digits.foldl (fun n c => 10 * n + (Text.digitValue? c).getD 0) 0
  if digits.isEmpty then .ok (none, cs)
  else if countLimit < n then .error .tooManyDigits
  else .ok (some n, cs.dropWhile isDigit)

/-- Fill and alignment at the start of a layout: whether a fill was given, and the rest. -/
def takeAlignment (cs : List Char) : Option Char × Option Alignment × List Char :=
  match cs with
  | c :: d :: rest =>
    match Alignment.ofChar? d, Alignment.ofChar? c with
    | some a, _ => (some c, some a, rest)
    | none, some a => (none, some a, d :: rest)
    | none, none => (none, none, cs)
  | [c] =>
    match Alignment.ofChar? c with
    | some a => (none, some a, [])
    | none => (none, none, [c])
  | [] => (none, none, [])

/-- Takes a given character off the start of a text. -/
def takeChar (c : Char) : List Char → Bool × List Char
  | d :: rest => if d = c then (true, rest) else (false, d :: rest)
  | [] => (false, [])

/-- Takes a sign mark off the start of a text. -/
def takeSignMark : List Char → Option Char × List Char
  | c :: rest => if c = '+' || c = '-' || c = ' ' then (some c, rest) else (none, c :: rest)
  | [] => (none, [])

/-- The separator at the start of a text, and the rest. -/
def takeSeparator (cs : List Char) : Except LayoutFault (Option Char × List Char) :=
  let (comma, afterComma) := takeChar ',' cs
  let (line, afterLine) := takeChar '_' afterComma
  if line then
    if comma || (takeChar ',' afterLine).1 then .error .bothSeparators
    else .ok (some '_', afterLine)
  else .ok (if comma then some ',' else none, afterComma)

/-- The precision at the start of a text, and the rest. -/
def takePrecision (cs : List Char) : Except LayoutFault (Option Nat × List Char) :=
  match cs with
  | '.' :: rest => do
    match ← takeNumber rest with
    | (none, _) => .error .missingPrecision
    | (some n, after) => .ok (some n, after)
  | _ => .ok (none, cs)

/-- Whether a separator goes with a presentation code. -/
def separatorFits (separator : Char) : Option Char → Bool
  | none => true
  | some c => ['d', 'e', 'f', 'g', 'E', 'G', '%', 'F', '\x00'].contains c
      || (separator == '_' && ['b', 'o', 'x', 'X'].contains c)

/-- Reads a layout for values of a type, with the alignment and the code that hold where
none is given. -/
def read (source : List Char) (align : Alignment) (code : Option Char) (typeName : String) :
    Except LayoutFault Layout := do
  let (fill, alignment, afterAlignment) := takeAlignment source
  let (sign, afterSign) := takeSignMark afterAlignment
  let (zeroSign, afterZeroSign) := takeChar 'z' afterSign
  let (alternate, afterAlternate) := takeChar '#' afterZeroSign
  let (zero, afterZero) :=
    if fill.isNone then takeChar '0' afterAlternate else (false, afterAlternate)
  let (width, afterWidth) ← takeNumber afterZero
  let (separator, afterSeparator) ← takeSeparator afterWidth
  let (precision, afterPrecision) ← takePrecision afterSeparator
  let code ←
    match afterPrecision with
    | [] => pure code
    | [c] => pure (some c)
    | _ => .error (.malformed (String.ofList source) typeName)
  match separator with
  | some s =>
    if !separatorFits s code then .error (.separatorNotAllowed s (code.getD 's')) else pure ()
  | none => pure ()
  return {
    fill := fill.getD (if zero then '0' else ' ')
    align := alignment.getD (if zero && align == .right then .afterSign else align)
    sign, zeroSign, alternate, width, separator, precision, code }

/-! ## Padding -/

/-- Pads a text without a sign. -/
def pad (l : Layout) (cs : List Char) : List Char :=
  let n := l.width.getD 0 - cs.length
  match l.align with
  | .left => cs ++ List.replicate n l.fill
  | .centre => List.replicate (n / 2) l.fill ++ cs ++ List.replicate (n - n / 2) l.fill
  | _ => List.replicate n l.fill ++ cs

/-- The number of digits between separators. -/
def groupSize (l : Layout) : Nat :=
  if (l.code.map ['b', 'o', 'x', 'X'].contains).getD false then 4 else 3

/-- Digits in reverse, in groups of `size` with a separator between them, with zeros in
front until the whole is at least `least` characters long. -/
def groupReversed (size : Nat) (separator : Char) : Nat → List Char → Nat → List Char
  | 0, digits, _ => digits
  | fuel + 1, digits, least =>
    let n := Nat.min size (Nat.max (Nat.max digits.length least) 1)
    let group := digits.take n ++ List.replicate (n - digits.length) '0'
    if digits.length ≤ n && least ≤ n then group
    else group ++ separator :: groupReversed size separator fuel (digits.drop n) (least - n - 1)

/-- Digits as a layout groups them, at least `least` characters. -/
def groupDigits (l : Layout) (digits : List Char) (least : Nat) : List Char :=
  match l.separator with
  | none => List.replicate (least - digits.length) '0' ++ digits
  | some s =>
    (groupReversed l.groupSize s (digits.length + least + 1) digits.reverse least).reverse

def signText (l : Layout) (negative : Bool) : List Char :=
  if negative then ['-']
  else
    match l.sign with
    | some '+' => ['+']
    | some ' ' => [' ']
    | _ => []

/-- Writes a number: sign, mark of the base, digits in groups, and what follows the digits. -/
def number (l : Layout) (negative : Bool) (mark digits rest : List Char) : List Char :=
  let sign := l.signText negative
  let around := sign.length + mark.length + rest.length
  let width := l.width.getD 0
  let least := if l.fill = '0' && l.align = .afterSign then width - around else 0
  let grouped := if digits.isEmpty then [] else l.groupDigits digits least
  let n := width - (around + grouped.length)
  match l.align with
  | .afterSign => sign ++ mark ++ List.replicate n l.fill ++ grouped ++ rest
  | _ => l.pad (sign ++ mark ++ grouped ++ rest)

/-! ## Text -/

def text (l : Layout) (cs : List Char) : Except LayoutFault (List Char) :=
  match l.code with
  | some 's' =>
    if l.sign = some ' ' then .error .spaceOnText
    else if l.sign.isSome then .error .signOnText
    else if l.zeroSign then .error .zeroSignOnText
    else if l.alternate then .error .alternateOnText
    else if l.align = .afterSign then .error .signPaddingOnText
    else .ok (l.pad (cs.take (l.precision.getD cs.length)))
  | some c => .error (.unknownCode c "str")
  | none => .ok (l.pad cs)

/-! ## Doubles -/

/-- Digits before the point, and all that follows them. -/
abbrev Parts := List Char × List Char

/-- A fraction after its point; without digits the point stays only in the alternate form. -/
def fraction (alternate : Bool) (digits : List Char) : List Char :=
  if digits.isEmpty && !alternate then [] else '.' :: digits

/-- Digits with zeros at the end up to a length. -/
def padRight (n : Nat) (cs : List Char) : List Char := cs ++ List.replicate (n - cs.length) '0'

/-- Scientific notation with at least `count` digits. -/
def scientific (alternate : Bool) (count : Nat) (d : Binary64.Decimal) : Parts :=
  (d.digits.take 1,
    fraction alternate ((padRight count d.digits).drop 1)
      ++ 'e' :: Binary64.Decimal.exponentText d.exponent)

/-- Positional notation with at least `count` digits and `least` of them after the point. -/
def positional (alternate : Bool) (count least : Nat) (d : Binary64.Decimal) : Parts :=
  let (whole, part) := d.positional
  (whole, fraction alternate (padRight (Nat.max least ((count : Int) - d.point).toNat) part))

def fixed (alternate : Bool) (units places : Nat) : Parts :=
  let (whole, part) := Binary64.fixedParts units places
  (whole, fraction alternate part)

/-- The shorter of the two notations at a precision. -/
def general (alternate keepPoint : Bool) (units precision : Nat) : Parts :=
  let count := Nat.max precision 1
  let d := Binary64.significant units count
  let shown := if alternate then count else 0
  let bound : Int := if keepPoint then (count : Int) - 1 else count
  if d.point ≤ -4 ∨ bound < d.point then scientific alternate shown d
  else positional alternate shown (if keepPoint then 1 else 0) d

/-- The fewest digits that read back. -/
def plain (alternate : Bool) (units : Nat) : Parts :=
  let d := Binary64.shortest units
  if d.point ≤ -4 ∨ 16 < d.point then scientific alternate 0 d else positional alternate 0 1 d

/-- The codes of doubles, one being the absence of a code. -/
def isDoubleCode : Option Char → Bool
  | none => true
  | some c => ['e', 'E', 'f', 'F', 'g', 'G', 'n', '%'].contains c

/-- The parts of a magnitude as a code asks for them. -/
def magnitude (l : Layout) (units : Nat) : Parts :=
  match l.code, l.precision with
  | none, none => plain l.alternate units
  | none, some p => general l.alternate true units p
  | some c, p =>
    let places := p.getD 6
    if c = 'e' || c = 'E' then
      scientific l.alternate (places + 1) (Binary64.significant units (places + 1))
    else if c = 'f' || c = 'F' || c = '%' then fixed l.alternate units places
    else general l.alternate false units places

/-- Whether a magnitude is written as zero. -/
def roundsToZero (l : Layout) (units : Nat) : Bool :=
  match l.code with
  | some c =>
    if c = 'f' || c = 'F' || c = '%' then
      roundQuotient (units * Nat.pow 10 (l.precision.getD 6)) Binary64.unitsPerOne == 0
    else units == 0
  | none => units == 0

/-- Capitals for the codes that are capitals. -/
def inCase (l : Layout) (cs : List Char) : List Char :=
  if l.code = some 'E' || l.code = some 'F' || l.code = some 'G' then cs.map Char.toUpper else cs

/-- Writes a double whose code is one for doubles. -/
def doubleBody (l : Layout) (x : Binary64) : List Char :=
  let scaled := if l.code = some '%' then x.mul Binary64.hundred else x
  let percent := if l.code = some '%' then ['%'] else []
  match scaled with
  | .nan => l.number false [] [] (l.inCase "nan".toList ++ percent)
  | .infinite negative => l.number negative [] [] (l.inCase "inf".toList ++ percent)
  | .finite negative units _ =>
    let (whole, rest) := l.magnitude units
    l.number (negative && !(l.zeroSign && l.roundsToZero units)) [] whole
      (l.inCase rest ++ percent)

/-- A layout for doubles, where the null character is the absence of a code. -/
def withoutNull (l : Layout) : Layout :=
  { l with code := if l.code = some '\x00' then none else l.code }

def double (l : Layout) (x : Binary64) : Except LayoutFault (List Char) :=
  if !isDoubleCode l.withoutNull.code then .error (.unknownCode (l.code.getD ' ') "float")
  else if 2147483647 < l.precision.getD 0 then .error .precisionTooBig
  else .ok (l.withoutNull.doubleBody x)

/-! ## Integers -/

def base : Char → Nat
  | 'b' => 2
  | 'o' => 8
  | 'x' | 'X' => 16
  | _ => 10

/-- The mark in front of an integer in the alternate form. -/
def baseMark : Char → List Char
  | 'b' => ['0', 'b']
  | 'o' => ['0', 'o']
  | 'x' => ['0', 'x']
  | 'X' => ['0', 'X']
  | _ => []

/-- The least whole number that is too large for a code point to be read off it. -/
def wordLimit : Int := 9223372036854775808

/-- Writes the character of a code point. -/
def character (l : Layout) (n : Int) : Except LayoutFault (List Char) :=
  if l.sign.isSome then .error .signOnCharacter
  else if l.alternate then .error .alternateOnCharacter
  else if n < -wordLimit ∨ wordLimit ≤ n then .error .characterTooLarge
  else if n < 0 ∨ 0x110000 ≤ n then .error .characterOutOfRange
  else .ok (l.number false [] [] [Char.ofNat n.toNat])

/-- Writes an integer in the base of its code. -/
def inBase (l : Layout) (n : Int) (c : Char) : List Char :=
  let digits := Nat.toDigits (base c) n.natAbs
  l.number (decide (n < 0)) (if l.alternate then baseMark c else [])
    (if c = 'X' then digits.map Char.toUpper else digits) []

def integer (l : Layout) (n : Int) (typeName : String) : Except LayoutFault (List Char) :=
  let c := l.code.getD 'd'
  if ['b', 'c', 'd', 'o', 'x', 'X', 'n'].contains c then
    if l.precision.isSome then .error .precisionOnInteger
    else if l.zeroSign then .error .zeroSignOnInteger
    else if c = 'c' then l.character n
    else .ok (l.inBase n c)
  else if isDoubleCode (some c) then
    match (Number.int n).toBinary64 with
    | .error f => .error (.arithmetic f)
    | .ok x => if 2147483647 < l.precision.getD 0 then .error .precisionTooBig else .ok (l.doubleBody x)
  else .error (.unknownCode c typeName)

end Layout

end ImageSizing
