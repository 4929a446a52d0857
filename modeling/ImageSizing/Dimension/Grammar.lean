import ImageSizing.Text.Numeral

/-!
# Token grammars

A dimension token is an optional sign, a decimal numeral and a suffix.  A grammar lists the
suffixes of pixel, factor and percentage tokens and says whether signs are allowed.  A pixel
numeral is a run of digits; the numeral of the other two may have a point, with digits
after it and perhaps before it.  Suffixes start with neither a digit nor a point, so a
token splits in one way only.
-/

namespace ImageSizing

/-- The suffixes of the three kinds of tokens, and whether a sign may come first. -/
structure Grammar where
  signed : Bool := false
  pixelSuffixes : List String := ["", "px"]
  factorSuffixes : List String := ["x"]
  percentSuffixes : List String := ["%", "pc"]
deriving DecidableEq

namespace Grammar

/-- Pixels by number alone or with `px`, factors with `x`, percentages with `%` or `pc`. -/
def standard : Grammar := {}

/-- Pixels may be marked by `p` instead. -/
def short : Grammar := { pixelSuffixes := ["", "p"] }

/-- Every numeral may have a sign. -/
def withSigns : Grammar := { signed := true }

/-- Pixels need their suffix, factors do not. -/
def loose : Grammar :=
  { pixelSuffixes := ["px"], factorSuffixes := ["", "x"], percentSuffixes := ["%", "pc", "percent"] }

instance : Inhabited Grammar := ⟨standard⟩

end Grammar

/-- A numeral with its sign: the digits before the point and those after it. -/
structure Numeral.Signed where
  negative : Bool
  whole : List Char
  part : List Char
deriving DecidableEq

namespace Grammar

/-- Takes a sign off a token, where signs are allowed. -/
def takeSign (signed : Bool) : List Char → Bool × List Char
  | '-' :: cs => if signed then (true, cs) else (false, '-' :: cs)
  | '+' :: cs => if signed then (false, cs) else (false, '+' :: cs)
  | cs => (false, cs)

/-- A numeral without a point, and what follows it. -/
def takeWhole? (signed : Bool) (cs : List Char) : Option (Numeral.Signed × List Char) :=
  let (negative, body) := takeSign signed cs
  let whole := body.takeWhile Char.isDigit
  if whole.isEmpty then none
  else some (⟨negative, whole, []⟩, body.dropWhile Char.isDigit)

/-- A numeral with or without a point, and what follows it. -/
def takeNumeral? (signed : Bool) (cs : List Char) : Option (Numeral.Signed × List Char) :=
  let (negative, body) := takeSign signed cs
  let whole := body.takeWhile Char.isDigit
  let rest := body.dropWhile Char.isDigit
  match rest with
  | '.' :: after =>
    let part := after.takeWhile Char.isDigit
    if part.isEmpty then none else some (⟨negative, whole, part⟩, after.dropWhile Char.isDigit)
  | _ => if whole.isEmpty then none else some (⟨negative, whole, []⟩, rest)

/-- Whether what follows a numeral is one of some suffixes. -/
def hasSuffix (suffixes : List String) (rest : List Char) : Bool :=
  suffixes.contains (String.ofList rest)

def pixel? (g : Grammar) (cs : List Char) : Option Numeral.Signed :=
  (takeWhole? g.signed cs).bind fun t => if hasSuffix g.pixelSuffixes t.2 then some t.1 else none

def factor? (g : Grammar) (cs : List Char) : Option Numeral.Signed :=
  (takeNumeral? g.signed cs).bind fun t => if hasSuffix g.factorSuffixes t.2 then some t.1 else none

def percent? (g : Grammar) (cs : List Char) : Option Numeral.Signed :=
  (takeNumeral? g.signed cs).bind fun t => if hasSuffix g.percentSuffixes t.2 then some t.1 else none

end Grammar

end ImageSizing
