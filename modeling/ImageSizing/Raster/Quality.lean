import ImageSizing.Failure
import ImageSizing.Value.Basic
import ImageSizing.Text.LooseNumeral
import ImageSizing.Text.Quoted

/-!
# Encoding quality

The quality of an encoded picture is a whole number that may be given as any loose value.
Doubles lose their fraction.  Text is an integer numeral: blanks at its ends, one sign, and
decimal digits of any script with single underscores between them.
-/

namespace ImageSizing.Quality

/-- Whether a character belongs to the run of digits of a numeral. -/
def isNumeralChar (c : Char) : Bool := c == '_' || (Text.digitValue? c).isSome

/-- Whether a run has a digit at both ends and no two underscores in a row. -/
def isWellSpaced : List Char → Bool
  | [] => false
  | ['_'] => false
  | '_' :: _ => false
  | [_] => true
  | _ :: '_' :: cs => isWellSpaced cs
  | _ :: c :: cs => isWellSpaced (c :: cs)

/-- The fault of a text that is no numeral; the text is quoted in part. -/
def unreadable (s : String) : Fault :=
  .output (.qualityText (String.ofList ((Text.quote s).toList.take 200)))

/-- The integer that a text writes. -/
def ofText (s : String) : Except Fault Int :=
  let (negative, cs) := Text.takeSign (s.toList.dropWhile Text.isPadding)
  let run := cs.takeWhile isNumeralChar
  let digits := run.filterMap Text.digitValue?
  if !isWellSpaced run then .error (unreadable s)
  else if Numeral.digitLimit < digits.length then .error (.numeralTooLong digits.length)
  else if (cs.dropWhile isNumeralChar).all Text.isPadding then
    let n : Nat := digits.foldl (fun n d => 10 * n + d) 0
    .ok (if negative then -n else n)
  else .error (unreadable s)

/-- The whole number that a value stands for. -/
def ofValue : Value → Except Fault Int
  | .int n => .ok n
  | .bool b => .ok (if b then 1 else 0)
  | .float x => (Number.truncate x).mapError .arithmetic
  | .str s => ofText s
  | v => .error (.output (.qualityType v.typeName))

end ImageSizing.Quality
