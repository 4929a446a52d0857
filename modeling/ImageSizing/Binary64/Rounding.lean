import ImageSizing.Binary64.Basic

/-!
# Rounding and arithmetic

Every operation is exact on unit counts and is then rounded by `roundUnits`, to the
nearest double and in a tie to the even neighbour.  `roundUnits` puts the quotient on the
grid whose spacing suits its size; `representable_roundUnits` says that the result is a
unit count that a double can hold whenever it is below the limit.

    representable_roundUnits : roundUnits n d < unitsLimit → Representable (roundUnits n d)
-/

namespace ImageSizing

/-- The whole number nearest to `n / d`; of two equally near the even one. -/
def roundQuotient (n d : Nat) : Nat :=
  if 2 * (n % d) < d then n / d
  else if d < 2 * (n % d) then n / d + 1
  else n / d + n / d % 2

namespace Binary64

/-- The distance between neighbouring doubles at a magnitude of `u` whole units. -/
def spacing (u : Nat) : Nat := Nat.pow 2 (u.log2 - 52)

/-- The count of units nearest to `n / d` units on the grid of doubles, ties to even. -/
def roundUnits (n d : Nat) : Nat :=
  roundQuotient n (d * spacing (n / d)) * spacing (n / d)

/-! ## Lemmas -/

theorem roundQuotient_le (n d : Nat) : roundQuotient n d ≤ n / d + 1 := by
  unfold roundQuotient
  have := Nat.mod_lt (n / d) (by decide : 0 < 2)
  split
  · omega
  · split <;> omega

theorem spacing_pos (u : Nat) : 0 < spacing u := Nat.two_pow_pos _

theorem div_spacing_lt (u : Nat) : u / spacing u < Nat.pow 2 53 := by
  refine (Nat.div_lt_iff_lt_mul (spacing_pos u)).2 (Nat.lt_of_lt_of_eq ?_ (Nat.pow_add 2 53 _))
  by_cases h : u = 0
  · subst h; exact Nat.two_pow_pos _
  · refine Nat.lt_of_lt_of_le Nat.lt_log2_self ?_
    exact Nat.pow_le_pow_right (by decide) (by omega)

theorem representable_mul_spacing {r k : Nat} (hr : r ≤ Nat.pow 2 53)
    (hlt : r * Nat.pow 2 k < unitsLimit) : Representable (r * Nat.pow 2 k) := by
  refine ⟨hlt, ?_⟩
  by_cases h53 : r = Nat.pow 2 53
  · have hsum : r * Nat.pow 2 k = Nat.pow 2 (53 + k) := h53 ▸ (Nat.pow_add 2 53 k).symm
    have hlog : (Nat.pow 2 (53 + k)).log2 = 53 + k := Nat.log2_two_pow
    rw [hsum, hlog]
    exact Nat.pow_dvd_pow 2 (by omega)
  · by_cases h0 : r = 0
    · subst h0; simp
    · refine Nat.dvd_trans (Nat.pow_dvd_pow 2 ?_) (Nat.dvd_mul_left _ _)
      have hr' : r < Nat.pow 2 53 := Nat.lt_of_le_of_ne hr h53
      have hlt' : r * Nat.pow 2 k < Nat.pow 2 (53 + k) :=
        Nat.lt_of_lt_of_eq (Nat.mul_lt_mul_of_pos_right hr' (Nat.two_pow_pos _))
          (Nat.pow_add 2 53 k).symm
      have hne : r * Nat.pow 2 k ≠ 0 :=
        Nat.mul_ne_zero h0 (Nat.pos_iff_ne_zero.1 (Nat.two_pow_pos _))
      have := (Nat.log2_lt hne).2 hlt'
      omega

theorem roundQuotient_le_two_pow (n d : Nat) :
    roundQuotient n (d * spacing (n / d)) ≤ Nat.pow 2 53 := by
  refine Nat.le_trans (roundQuotient_le _ _) ?_
  rw [← Nat.div_div_eq_div_mul]
  exact div_spacing_lt _

theorem representable_roundUnits {n d : Nat} (h : roundUnits n d < unitsLimit) :
    Representable (roundUnits n d) :=
  representable_mul_spacing (roundQuotient_le_two_pow n d) h

/-! ## Arithmetic -/

/-- The double nearest to `n / d` units, an infinity beyond the largest. -/
def ofUnitRatio (negative : Bool) (n d : Nat) : Binary64 :=
  if h : roundUnits n d < unitsLimit then .finite negative (roundUnits n d) (representable_roundUnits h)
  else .infinite negative

/-- The double nearest to `n / d`, an infinity beyond the largest. -/
def ofRatio (negative : Bool) (n d : Nat) : Binary64 :=
  ofUnitRatio negative (n * unitsPerOne) d

/-- The double nearest to an integer, an infinity beyond the largest. -/
def ofInt (n : Int) : Binary64 := ofRatio (decide (n < 0)) n.natAbs 1

/-- One hundred, the whole of a percentage. -/
def hundred : Binary64 := ofInt 100

def half : Binary64 := ofRatio false 1 2

/-- The sum; an exact zero is negative only if both summands are. -/
def add : Binary64 → Binary64 → Binary64
  | .nan, _ => .nan
  | _, .nan => .nan
  | .infinite s, .infinite t => if s == t then .infinite s else .nan
  | .infinite s, .finite .. => .infinite s
  | .finite .., .infinite t => .infinite t
  | .finite s u _, .finite t v _ =>
    let sum : Int := (if s then -(u : Int) else u) + (if t then -(v : Int) else v)
    if sum = 0 then zero (s && t) else ofUnitRatio (decide (sum < 0)) sum.natAbs 1

def mul : Binary64 → Binary64 → Binary64
  | .nan, _ => .nan
  | _, .nan => .nan
  | .infinite s, .infinite t => .infinite (s != t)
  | .infinite s, .finite t v _ => if v = 0 then .nan else .infinite (s != t)
  | .finite s u _, .infinite t => if u = 0 then .nan else .infinite (s != t)
  | .finite s u _, .finite t v _ => ofUnitRatio (s != t) (u * v) unitsPerOne

/-- The quotient; a zero divisor gives an infinity, or `nan` for a zero dividend. -/
def div : Binary64 → Binary64 → Binary64
  | .nan, _ => .nan
  | _, .nan => .nan
  | .infinite _, .infinite _ => .nan
  | .infinite s, .finite t _ _ => .infinite (s != t)
  | .finite s _ _, .infinite t => zero (s != t)
  | .finite s u _, .finite t v _ =>
    if v = 0 then (if u = 0 then .nan else .infinite (s != t))
    else ofUnitRatio (s != t) (u * unitsPerOne) v

end Binary64

end ImageSizing
