import ImageSizing.Text.Blank
import ImageSizing.Text.DecimalDigit

/-!
# Numerals in loose text

Text that is to be read as a number may have blanks at its ends, a sign, decimal digits of
any script, and single underscores between digits.  The information separators are no
blanks here.
-/

namespace ImageSizing.Text

/-- The blanks that may surround a numeral. -/
def isPadding (c : Char) : Bool := isBlank c && !(28 ≤ c.toNat && c.toNat ≤ 31)

/-- The ASCII digit in the place of a digit of another script. -/
def plainDigit (c : Char) : Char :=
  match digitValue? c with
  | some d => Char.ofNat (48 + d)
  | none => c

/-- A text without the blanks around it, with ASCII digits. -/
def trimNumeral (s : String) : List Char :=
  (((s.toList.dropWhile isPadding).reverse.dropWhile isPadding).reverse).map plainDigit

/-- The sign in front of a numeral, and the rest. -/
def takeSign : List Char → Bool × List Char
  | '-' :: cs => (true, cs)
  | '+' :: cs => (false, cs)
  | cs => (false, cs)

/-- A text without its underscores, each of which must stand between two ASCII digits; `last`
is the character before the text. -/
def ungroup? (last : Char) : List Char → Option (List Char)
  | [] => if last = '_' then none else some []
  | c :: cs =>
    if c = '_' then if last.isDigit then ungroup? c cs else none
    else if last = '_' && !c.isDigit then none
    else (ungroup? c cs).map (c :: ·)

end ImageSizing.Text
