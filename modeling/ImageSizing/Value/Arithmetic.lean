import ImageSizing.Binary64.Reading
import ImageSizing.Value.Shown

/-!
# Arithmetic on loose values

Calculations on values that need not be numbers.  Truth values count as 0 and 1.  A sequence
times a whole number is repeated and two sequences of one kind are joined; sequences are
ordered by the first items that differ.  Every other mixture is a fault that names the types.
On numbers the operations are those of `Number` (`times_ofNumber`, `dividedBy_ofNumber`,
`plus_ofNumber`, `below?_ofNumber`).
-/

namespace ImageSizing

namespace Number

/-- A product whose failure is a fault. -/
def product (a b : Number) : Except Fault Number := (a.mul b).mapError .arithmetic

/-- A quotient whose failure is a fault. -/
def quotient (a b : Number) : Except Fault Number := ((a.div b).mapError .arithmetic).map .float

def sum (a b : Number) : Except Fault Number := (a.add b).mapError .arithmetic

end Number

namespace Value

/-! ## Sequences -/

/-- Whether a value is a text, a list or a tuple. -/
def isSequence : Value → Bool
  | .str _ | .list _ | .tuple _ => true
  | _ => false

/-- The count from which on, of either sign, nothing can be repeated. -/
def countLimit : Nat := Nat.pow 2 63

/-- The number of items from which on a repeated sequence does not fit in memory. -/
def room : Nat := Nat.pow 2 32

/-- Items after themselves, a number of times. -/
def repeatItems {α : Type} (count : Nat) (items : List α) : Except Fault (List α) :=
  if items.isEmpty then .ok []
  else if room ≤ items.length * count then .error .outOfMemory
  else .ok (List.replicate count items).flatten

/-- Text after itself, a number of times. -/
def repeatText (count : Nat) (s : String) : Except Fault String :=
  if 1 < count && countLimit ≤ s.length * count then .error .textTooLong
  else (repeatItems count s.toList).map String.ofList

/-- A sequence after itself a number of times, a negative one counting as none. -/
def repeatSequence (count : Int) (v : Value) : Except Fault Value :=
  if count < -countLimit ∨ countLimit ≤ count then .error .countTooLarge
  else
    match v with
    | .str s => (repeatText count.toNat s).map .str
    | .list items => (repeatItems count.toNat items).map .list
    | .tuple items => (repeatItems count.toNat items).map .tuple
    | v => .error (.repetition v.typeName)

/-- A sequence times a value, which must be a whole number. -/
def repeated (sequence count : Value) : Except Fault Value :=
  match count.quantity? with
  | some (.int n) => repeatSequence n sequence
  | _ => .error (.repetition count.typeName)

/-- A sequence with another one of its kind after it. -/
def joined : Value → Value → Except Fault Value
  | .str s, .str t => .ok (.str (s ++ t))
  | .list xs, .list ys => .ok (.list (xs ++ ys))
  | .tuple xs, .tuple ys => .ok (.tuple (xs ++ ys))
  | a, b => .error (.concatenation a.typeName b.typeName)

/-! ## Operations -/

def times (a b : Value) : Except Fault Value :=
  match a.quantity?, b.quantity? with
  | some x, some y => (x.product y).map ofNumber
  | _, _ =>
    if a.isSequence then repeated a b
    else if b.isSequence then repeated b a
    else .error (.operands "*" a.typeName b.typeName)

def dividedBy (a b : Value) : Except Fault Value :=
  match a.quantity?, b.quantity? with
  | some x, some y => (x.quotient y).map ofNumber
  | _, _ => .error (.operands "/" a.typeName b.typeName)

def plus (a b : Value) : Except Fault Value :=
  match a.quantity?, b.quantity? with
  | some x, some y => (x.sum y).map ofNumber
  | _, _ => if a.isSequence then joined a b else .error (.operands "+" a.typeName b.typeName)

mutual

/-- Whether a value is strictly below another; the types that cannot be compared, if any. -/
def below? : Value → Value → Except (String × String) Bool
  | .str s, .str t => .ok (decide (s < t))
  | .list xs, .list ys => itemsBelow? xs ys
  | .tuple xs, .tuple ys => itemsBelow? xs ys
  | a, b =>
    match a.quantity?, b.quantity? with
    | some x, some y => .ok (x.lt y)
    | _, _ => .error (a.typeName, b.typeName)

/-- Whether items are below others by the first that differ, or by running out first. -/
def itemsBelow? : List Value → List Value → Except (String × String) Bool
  | [], ys => .ok (!ys.isEmpty)
  | _, [] => .ok false
  | x :: xs, y :: ys => if x.sameKey y then itemsBelow? xs ys else below? x y

end

/-- Whether a value is strictly below another. -/
def isBelow (a b : Value) : Except Fault Bool :=
  (below? a b).mapError fun t => .notOrdered "<" t.1 t.2

/-- Whether a value is strictly above another. -/
def isAbove (a b : Value) : Except Fault Bool :=
  (below? b a).mapError fun t => .notOrdered ">" t.2 t.1

/-- The double that a value stands for; a text is read. -/
def toBinary64 (v : Value) : Except Fault Binary64 :=
  match v, v.quantity? with
  | _, some n => n.toBinary64.mapError .arithmetic
  | .str s, none =>
    match Binary64.ofText? s with
    | some x => .ok x
    | none => .error (.unreadableDouble (Text.quote s))
  | v, none => .error (.notDouble v.typeName)

/-- Whether a value, which must be a number, is one that a double can hold and finite. -/
def isFinite (v : Value) : Except Fault Bool :=
  match v.quantity? with
  | some n => .ok n.isFinite
  | none => .error (.notReal v.typeName)

/-- A value rounded to a whole number, half of one upwards. -/
def roundHalfUp (v : Value) : Except Fault Int :=
  match v.quantity? with
  | some n => n.roundHalfUp.mapError .arithmetic
  | none => do .error (.notReal (← plus v (.float .half)).typeName)

/-! ## Lemmas -/

@[simp] theorem quantity?_ofNumber (n : Number) : (ofNumber n).quantity? = some n := by
  cases n <;> rfl

theorem times_ofNumber (a b : Number) :
    times (ofNumber a) (ofNumber b) = (a.product b).map ofNumber := by
  simp [times]

theorem dividedBy_ofNumber (a b : Number) :
    dividedBy (ofNumber a) (ofNumber b) = (a.quotient b).map ofNumber := by
  simp [dividedBy]

theorem plus_ofNumber (a b : Number) : plus (ofNumber a) (ofNumber b) = (a.sum b).map ofNumber := by
  simp [plus]

theorem below?_ofNumber (a b : Number) : below? (ofNumber a) (ofNumber b) = .ok (a.lt b) := by
  cases a <;> cases b <;> simp [ofNumber, below?, quantity?]

theorem isFinite_ofNumber (n : Number) : (ofNumber n).isFinite = .ok n.isFinite := by
  simp [isFinite]

theorem roundHalfUp_ofNumber (n : Number) :
    (ofNumber n).roundHalfUp = n.roundHalfUp.mapError .arithmetic := by
  simp [roundHalfUp]

end Value

end ImageSizing
