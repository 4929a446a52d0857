import ImageSizing.Dimension.Grammar
import ImageSizing.Dimension.Basic
import ImageSizing.Failure

/-!
# Reading dimensions

`Dimension.read` turns any value into a dimension.  Text is a token of the grammar, tried
as pixels, factor and percentage; a number reads like its own text, whole doubles like the
integer they are; a mapping with `unit` and `value` is taken as it stands.  Left out are
`nothing`, empty text and mappings without a value.  Everything else is invalid, and so is
every number that is no finite double.  The only fault is a pixel numeral that passes these
tests with more digits than `Numeral.digitLimit`.
-/

namespace ImageSizing

namespace Numeral.Signed

/-- The double nearest to a numeral. -/
def toBinary64 (t : Numeral.Signed) : Binary64 :=
  Binary64.ofDecimal t.negative (readDigits (t.whole ++ t.part)) (-(t.part.length : Int))

/-- The integer that a numeral without a point writes. -/
def toInt (t : Numeral.Signed) : Int :=
  if t.negative then -(readDigits t.whole : Int) else readDigits t.whole

theorem natAbs_toInt (t : Numeral.Signed) : t.toInt.natAbs = readDigits t.whole := by
  unfold toInt
  split
  · rw [Int.natAbs_neg, Int.natAbs_natCast]
  · rw [Int.natAbs_natCast]

end Numeral.Signed

namespace Dimension

def ofPixelNumeral (t : Numeral.Signed) : Except Fault Dimension :=
  if t.toBinary64.isFinite then
    if t.whole.length ≤ Numeral.digitLimit then .ok (pixel (.int t.toInt))
    else .error (.numeralTooLong t.whole.length)
  else .ok invalid

def ofFactorNumeral (t : Numeral.Signed) : Dimension :=
  if t.toBinary64.isFinite then factor t.toBinary64 else invalid

def ofPercentNumeral (t : Numeral.Signed) : Dimension :=
  if t.toBinary64.isFinite then factor (t.toBinary64.div Binary64.hundred) else invalid

/-- Reads a token that is not empty. -/
def readToken (g : Grammar) (cs : List Char) : Except Fault Dimension :=
  match g.pixel? cs with
  | some t => ofPixelNumeral t
  | none =>
    match g.factor? cs with
    | some t => .ok (ofFactorNumeral t)
    | none =>
      match g.percent? cs with
      | some t => .ok (ofPercentNumeral t)
      | none => .ok invalid

section

variable {g : Grammar} {cs : List Char} {t : Numeral.Signed}

theorem readToken_of_pixel? (h : g.pixel? cs = some t) : readToken g cs = ofPixelNumeral t := by
  unfold readToken
  rw [h]

theorem readToken_of_factor? (hp : g.pixel? cs = none) (h : g.factor? cs = some t) :
    readToken g cs = .ok (ofFactorNumeral t) := by
  unfold readToken
  rw [hp, h]

theorem readToken_of_percent? (hp : g.pixel? cs = none) (hf : g.factor? cs = none)
    (h : g.percent? cs = some t) : readToken g cs = .ok (ofPercentNumeral t) := by
  unfold readToken
  rw [hp, hf, h]

theorem readToken_of_none (hp : g.pixel? cs = none) (hf : g.factor? cs = none)
    (h : g.percent? cs = none) : readToken g cs = .ok invalid := by
  unfold readToken
  rw [hp, hf, h]

/-- What kind of token a text is taken for, and what it is read as. -/
theorem readToken_cases (g : Grammar) (cs : List Char) :
    (∃ t, g.pixel? cs = some t ∧ readToken g cs = ofPixelNumeral t) ∨
    g.pixel? cs = none ∧ ((∃ t, g.factor? cs = some t ∧ readToken g cs = .ok (ofFactorNumeral t)) ∨
      (∃ t, g.percent? cs = some t ∧ readToken g cs = .ok (ofPercentNumeral t)) ∨
      readToken g cs = .ok invalid) := by
  cases hp : g.pixel? cs with
  | some t => exact .inl ⟨t, rfl, readToken_of_pixel? hp⟩
  | none =>
    refine .inr ⟨rfl, ?_⟩
    cases hf : g.factor? cs with
    | some t => exact .inl ⟨t, rfl, readToken_of_factor? hp hf⟩
    | none =>
      cases h : g.percent? cs with
      | some t => exact .inr (.inl ⟨t, rfl, readToken_of_percent? hp hf h⟩)
      | none => exact .inr (.inr (readToken_of_none hp hf h))

end

def readText (g : Grammar) (s : String) : Except Fault Dimension :=
  if s.isEmpty then .ok unspecified else readToken g s.toList

theorem readText_of_ne_empty (g : Grammar) {s : String} (hs : s ≠ "") :
    readText g s = readToken g s.toList := by
  have hsome : s.isEmpty = false := by
    rw [← Bool.not_eq_true, String.isEmpty_iff]
    exact hs
  unfold readText
  rw [hsome, if_neg Bool.false_ne_true]

/-- The token that a finite number reads like: `100.0` is the token `100`. -/
def tokenOf : Number → String
  | .int n => Numeral.text n
  | .float x =>
    match x.isWhole, x.truncate? with
    | true, some n => Numeral.text n
    | _, _ => x.text

def readNumber (g : Grammar) (v : Number) : Except Fault Dimension :=
  if v.isFinite then readText g (tokenOf v) else .ok invalid

/-- The unit that a structured dimension names. -/
def structuredUnit? : Value → Option AxisUnit
  | .str "px" => some .pixel
  | .str "x" => some .factor
  | _ => none

/-- Reads a mapping with `unit` and `value`. -/
def readStructured (m : Mapping) : Dimension :=
  match m.get "value" with
  | .nothing => unspecified
  | value =>
    match structuredUnit? (m.get "unit"), value.number? with
    | some unit, some v => if v.isFinite then ⟨unit, .ofNumber v⟩ else invalid
    | _, _ => invalid

def read (g : Grammar) : Value → Except Fault Dimension
  | .dim u v => .ok ⟨u, v⟩
  | .nothing => .ok unspecified
  | .str s => readText g s
  | .map m => .ok (readStructured m)
  | .int n => readNumber g (.int n)
  | .float x => readNumber g (.float x)
  | _ => .ok invalid

end Dimension

end ImageSizing
