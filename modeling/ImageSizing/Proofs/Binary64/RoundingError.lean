import Mathlib.Data.Rat.Floor
import Mathlib.Tactic.FieldSimp
import Mathlib.Tactic.GCongr
import Mathlib.Tactic.Linarith
import Mathlib.Tactic.NormNum
import Mathlib.Tactic.Positivity
import Mathlib.Tactic.Ring
import ImageSizing.Proofs.Binary64.Overflow

/-!
# The error of a rounding

A double without a sign has an exact value (`HasValue`), and an operation computes the exact
result and rounds it once.  In the range where doubles have all of their 53 digits one
rounding multiplies by a factor between 1 - 2⁻⁵³ and 1 + 2⁻⁵³, so that `Near k a b` says what
`k` roundings can have made of `a`:

    (1 - 2⁻⁵³) ^ k * a ≤ b ≤ (1 + 2⁻⁵³) ^ k * a

`Moderate` names that range generously: zero, and what lies between a negative power of two
and its inverse.  It is kept by products and quotients with the exponents added, so a
calculation of a few operations on moderate numbers never has to look at the range again.
-/

namespace ImageSizing

/-! ## Whole quotients -/

/-- A rounded quotient is at most half of the divisor off. -/
theorem roundQuotient_error {n d : Nat} (hd : 0 < d) :
    2 * n ≤ 2 * (d * roundQuotient n d) + d ∧ 2 * (d * roundQuotient n d) ≤ 2 * n + d := by
  have hsplit : d * (n / d) + n % d = n := Nat.div_add_mod n d
  have hmod : n % d < d := Nat.mod_lt n hd
  have hup : d * (n / d + 1) = d * (n / d) + d := by rw [Nat.mul_add, Nat.mul_one]
  unfold roundQuotient
  split
  · omega
  · split
    · omega
    · -- a tie: up or down, both are half of the divisor away
      rcases Nat.mod_two_eq_zero_or_one (n / d) with heven | hodd
      · rw [heven, Nat.add_zero]
        omega
      · rw [hodd]
        omega

theorem roundQuotient_of_dvd {n d : Nat} (hd : 0 < d) (h : d ∣ n) : roundQuotient n d = n / d := by
  have hmod : n % d = 0 := Nat.mod_eq_zero_of_dvd h
  unfold roundQuotient
  rw [if_pos (by omega)]

namespace Binary64

/-- A count of units that a double can hold is rounded to itself. -/
theorem roundUnits_of_representable {u : Nat} (h : Representable u) : roundUnits u 1 = u := by
  have hdvd : spacing u ∣ u := h.2
  unfold roundUnits
  rw [Nat.div_one, Nat.one_mul, roundQuotient_of_dvd (spacing_pos u) hdvd]
  exact Nat.div_mul_cancel hdvd

theorem roundUnits_zero {d : Nat} (hd : 0 < d) : roundUnits 0 d = 0 := by
  unfold roundUnits
  rw [roundQuotient_of_dvd (Nat.mul_pos hd (spacing_pos _)) (Nat.dvd_zero _), Nat.zero_div, Nat.zero_mul]

/-- Rounding is half a spacing off at most. -/
theorem roundUnits_spacing_error {n d : Nat} (hd : 0 < d) :
    2 * n ≤ 2 * (d * roundUnits n d) + d * spacing (n / d) ∧
      2 * (d * roundUnits n d) ≤ 2 * n + d * spacing (n / d) := by
  have hround := roundQuotient_error (n := n) (Nat.mul_pos hd (spacing_pos (n / d)))
  have hunits : d * spacing (n / d) * roundQuotient n (d * spacing (n / d)) = d * roundUnits n d := by
    unfold roundUnits
    rw [Nat.mul_assoc, Nat.mul_comm (spacing (n / d))]
  rw [hunits] at hround
  exact hround

/-- With 53 digits at hand the result is off by one in 2⁵³ at most. -/
theorem roundUnits_error {n d : Nat} (hd : 0 < d) (h : 2 ^ 52 * d ≤ n) :
    (2 ^ 53 - 1) * n ≤ 2 ^ 53 * (d * roundUnits n d) ∧
      2 ^ 53 * (d * roundUnits n d) ≤ (2 ^ 53 + 1) * n := by
  have hlarge : 2 ^ 52 ≤ n / d := (Nat.le_div_iff_mul_le hd).2 h
  have hne : n / d ≠ 0 := by omega
  have hlog : 52 ≤ (n / d).log2 := (Nat.le_log2 hne).2 hlarge
  have hspacing : 2 ^ 52 * spacing (n / d) ≤ n / d := by
    rw [two_pow_mul_spacing hlog]
    exact Nat.log2_self_le hne
  have hgrid : 2 ^ 52 * (d * spacing (n / d)) ≤ n := by
    rw [Nat.mul_left_comm]
    exact Nat.le_trans (Nat.mul_le_mul_left d hspacing) (Nat.mul_div_le n d)
  have hround := roundUnits_spacing_error (n := n) hd
  omega

/-! ## Fractions that are nearly equal -/

/-- The greatest relative error of one rounding. -/
def unitRoundoff : ℚ := 1 / 2 ^ 53

theorem unitRoundoff_nonneg : 0 ≤ unitRoundoff := by
  unfold unitRoundoff
  positivity

theorem unitRoundoff_le_one : unitRoundoff ≤ 1 := by
  unfold unitRoundoff
  norm_num

/-- What `k` roundings can make of a fraction. -/
structure Near (k : ℕ) (a b : ℚ) : Prop where
  lower : (1 - unitRoundoff) ^ k * a ≤ b
  upper : b ≤ (1 + unitRoundoff) ^ k * a

namespace Near

variable {j k : ℕ} {a b c : ℚ}

theorem refl (a : ℚ) : Near 0 a a := by
  constructor <;> simp

theorem trans (h : Near j a b) (h' : Near k b c) : Near (j + k) a c := by
  have hdown : 0 ≤ 1 - unitRoundoff := sub_nonneg.2 unitRoundoff_le_one
  have hup : 0 ≤ 1 + unitRoundoff := add_nonneg zero_le_one unitRoundoff_nonneg
  constructor
  · calc (1 - unitRoundoff) ^ (j + k) * a
        = (1 - unitRoundoff) ^ k * ((1 - unitRoundoff) ^ j * a) := by ring
      _ ≤ (1 - unitRoundoff) ^ k * b := mul_le_mul_of_nonneg_left h.lower (pow_nonneg hdown k)
      _ ≤ c := h'.lower
  · calc c ≤ (1 + unitRoundoff) ^ k * b := h'.upper
      _ ≤ (1 + unitRoundoff) ^ k * ((1 + unitRoundoff) ^ j * a) :=
        mul_le_mul_of_nonneg_left h.upper (pow_nonneg hup k)
      _ = (1 + unitRoundoff) ^ (j + k) * a := by ring

/-- More roundings leave more room. -/
theorem mono (h : Near j a b) (ha : 0 ≤ a) (hjk : j ≤ k) : Near k a b := by
  have hdown : 0 ≤ 1 - unitRoundoff := sub_nonneg.2 unitRoundoff_le_one
  have hbelow : 1 - unitRoundoff ≤ 1 := sub_le_self 1 unitRoundoff_nonneg
  have habove : 1 ≤ 1 + unitRoundoff := le_add_of_nonneg_right unitRoundoff_nonneg
  constructor
  · refine le_trans (mul_le_mul_of_nonneg_right ?_ ha) h.lower
    exact pow_le_pow_of_le_one hdown hbelow hjk
  · refine le_trans h.upper (mul_le_mul_of_nonneg_right ?_ ha)
    exact pow_le_pow_right₀ habove hjk

theorem mul_right (h : Near k a b) (hc : 0 ≤ c) : Near k (a * c) (b * c) := by
  constructor
  · rw [← mul_assoc]
    exact mul_le_mul_of_nonneg_right h.lower hc
  · rw [← mul_assoc]
    exact mul_le_mul_of_nonneg_right h.upper hc

theorem div_right (h : Near k a b) (hc : 0 ≤ c) : Near k (a / c) (b / c) := by
  rw [div_eq_mul_inv, div_eq_mul_inv]
  exact h.mul_right (inv_nonneg.2 hc)

end Near

/-! ## The moderate range -/

/-- Zero, or a positive fraction that is neither large nor small. -/
def Moderate (k : ℕ) (q : ℚ) : Prop := q = 0 ∨ 1 ≤ q * 2 ^ k ∧ q ≤ 2 ^ k

namespace Moderate

variable {j k : ℕ} {a b : ℚ}

theorem nonneg (h : Moderate k a) : 0 ≤ a := by
  rcases h with rfl | ⟨hlow, _⟩
  · exact le_refl 0
  · exact le_of_lt (pos_of_mul_pos_left (by linarith) (by positivity))

theorem le (h : Moderate k a) : a ≤ 2 ^ k := by
  rcases h with rfl | ⟨_, hhigh⟩
  · positivity
  · exact hhigh

theorem mono (h : Moderate j a) (hjk : j ≤ k) : Moderate k a := by
  have hpow : (2 : ℚ) ^ j ≤ 2 ^ k := pow_le_pow_right₀ (by norm_num) hjk
  have ha := h.nonneg
  rcases h with rfl | ⟨hlow, hhigh⟩
  · exact .inl rfl
  · exact .inr ⟨le_trans hlow (mul_le_mul_of_nonneg_left hpow ha), le_trans hhigh hpow⟩

theorem of_natCast {n : ℕ} (h : n < 2 ^ k) : Moderate k n := by
  rcases Nat.eq_zero_or_pos n with rfl | hpos
  · exact .inl Nat.cast_zero
  · have hone : (1 : ℚ) ≤ n := by exact_mod_cast hpos
    have hpow : (1 : ℚ) ≤ 2 ^ k := one_le_pow₀ (by norm_num)
    refine .inr ⟨one_le_mul_of_one_le_of_one_le hone hpow, ?_⟩
    exact_mod_cast le_of_lt h

theorem mul (h : Moderate j a) (h' : Moderate k b) : Moderate (j + k) (a * b) := by
  have ha := h.nonneg
  have hb := h'.nonneg
  rcases h with rfl | ⟨hlow, hhigh⟩
  · exact .inl (zero_mul b)
  rcases h' with rfl | ⟨hlow', hhigh'⟩
  · exact .inl (mul_zero a)
  refine .inr ⟨?_, ?_⟩
  · calc (1 : ℚ) ≤ (a * 2 ^ j) * (b * 2 ^ k) := one_le_mul_of_one_le_of_one_le hlow hlow'
      _ = a * b * 2 ^ (j + k) := by ring
  · calc a * b ≤ 2 ^ j * 2 ^ k := mul_le_mul hhigh hhigh' hb (by positivity)
      _ = 2 ^ (j + k) := (pow_add 2 j k).symm

/-- The range is closed under inverses. -/
theorem inv (h : Moderate k a) : Moderate k a⁻¹ := by
  rcases h with rfl | ⟨hlow, hhigh⟩
  · exact .inl inv_zero
  · have ha : 0 < a := pos_of_mul_pos_left (by linarith) (by positivity)
    refine .inr ⟨?_, ?_⟩
    · rw [inv_mul_eq_div, one_le_div ha]
      exact hhigh
    · rw [inv_le_iff_one_le_mul₀ ha, mul_comm]
      exact hlow

theorem div (h : Moderate j a) (h' : Moderate k b) : Moderate (j + k) (a / b) := by
  rw [div_eq_mul_inv]
  exact h.mul h'.inv

/-- Rounding once at most doubles or halves. -/
theorem near (h : Moderate k a) (hn : Near 1 a b) : Moderate (k + 1) b := by
  have ha := h.nonneg
  have hlower := hn.lower
  have hupper := hn.upper
  rw [pow_one] at hlower hupper
  unfold unitRoundoff at hlower hupper
  rcases h with rfl | ⟨hlow, hhigh⟩
  · exact .inl (by linarith)
  · refine .inr ⟨?_, ?_⟩
    · calc (1 : ℚ) ≤ a * 2 ^ k := hlow
        _ ≤ b * 2 * 2 ^ k := mul_le_mul_of_nonneg_right (by linarith) (by positivity)
        _ = b * 2 ^ (k + 1) := by ring
    · calc b ≤ 2 * a := by linarith
        _ ≤ 2 * 2 ^ k := mul_le_mul_of_nonneg_left hhigh (by norm_num)
        _ = 2 ^ (k + 1) := by ring

/-- Half of one is added to every number before it is cut off. -/
theorem add_half (h : Moderate k a) : Moderate (k + 1) (a + 1 / 2) := by
  have ha := h.nonneg
  have hpow : (1 : ℚ) ≤ 2 ^ k := one_le_pow₀ (by norm_num)
  have hhigh := h.le
  refine .inr ⟨?_, ?_⟩
  · calc (1 : ℚ) ≤ 1 / 2 * 2 ^ (k + 1) := by rw [pow_succ]; linarith
      _ ≤ (a + 1 / 2) * 2 ^ (k + 1) := mul_le_mul_of_nonneg_right (by linarith) (by positivity)
  · rw [pow_succ]
    linarith

end Moderate

/-! ## Values of doubles -/

/-- A finite double without a sign, and the fraction that it stands for. -/
def HasValue (x : Binary64) (q : ℚ) : Prop :=
  ∃ units fits, x = finite false units fits ∧ (units : ℚ) = q * unitsPerOne

theorem unitsPerOne_cast_pos : (0 : ℚ) < unitsPerOne := by exact_mod_cast unitsPerOne_pos

theorem HasValue.isFinite {x : Binary64} {q : ℚ} (h : HasValue x q) : x.isFinite = true := by
  obtain ⟨u, fits, rfl, _⟩ := h
  rfl

/-- Moderate quotients are far from both ends of the doubles. -/
theorem moderate_bounds :
    2 ^ 52 * 2 ^ 200 ≤ unitsPerOne ∧ 2 * (2 ^ 200 * unitsPerOne) < overflowBound := by
  decide +kernel

section Quotient

variable {n d : ℕ} {a : ℚ}

theorem roundUnits_lt_unitsLimit_of_moderate (hd : 0 < d) (hn : (n : ℚ) = a * unitsPerOne * d)
    (ha : Moderate 200 a) : roundUnits n d < unitsLimit := by
  have hone := unitsPerOne_cast_pos
  have hdq : (0 : ℚ) < d := by exact_mod_cast hd
  have hscaled : (n : ℚ) ≤ d * (2 ^ 200 * unitsPerOne) := by
    rw [hn, mul_comm]
    exact mul_le_mul_of_nonneg_left (mul_le_mul_of_nonneg_right ha.le hone.le) hdq.le
  have hnat : n ≤ d * (2 ^ 200 * unitsPerOne) := by exact_mod_cast hscaled
  rw [roundUnits_lt_unitsLimit_iff hd]
  calc 2 * n ≤ 2 * (d * (2 ^ 200 * unitsPerOne)) := Nat.mul_le_mul_left 2 hnat
    _ = d * (2 * (2 ^ 200 * unitsPerOne)) := Nat.mul_left_comm _ _ _
    _ < d * overflowBound := Nat.mul_lt_mul_of_pos_left moderate_bounds.2 hd

/-- A moderate quotient is zero or has all of its digits. -/
theorem zero_or_large_of_moderate (hd : 0 < d) (hn : (n : ℚ) = a * unitsPerOne * d)
    (ha : Moderate 200 a) : n = 0 ∨ 2 ^ 52 * d ≤ n := by
  have hdq : (0 : ℚ) < d := by exact_mod_cast hd
  have hsmall : (2 ^ 52 * 2 ^ 200 : ℚ) ≤ unitsPerOne := by exact_mod_cast moderate_bounds.1
  have hnonneg := ha.nonneg
  rcases ha with rfl | ⟨hlow, _⟩
  · left
    have hzero : (n : ℚ) = 0 := by rw [hn, zero_mul, zero_mul]
    exact_mod_cast hzero
  · right
    have hscaled : (2 ^ 52 * d : ℚ) ≤ n := by
      calc (2 ^ 52 * d : ℚ) ≤ a * 2 ^ 200 * (2 ^ 52 * d) :=
            le_mul_of_one_le_left (by positivity) hlow
        _ = a * (2 ^ 52 * 2 ^ 200) * d := by ring
        _ ≤ a * unitsPerOne * d :=
            mul_le_mul_of_nonneg_right (mul_le_mul_of_nonneg_left hsmall hnonneg) hdq.le
        _ = n := hn.symm
    exact_mod_cast hscaled

/-- The value of a rounded quotient is one rounding away. -/
theorem near_roundUnits (hd : 0 < d) (hn : (n : ℚ) = a * unitsPerOne * d) (ha : Moderate 200 a) :
    Near 1 a (roundUnits n d / unitsPerOne) := by
  have hone := unitsPerOne_cast_pos
  have hdq : (0 : ℚ) < d := by exact_mod_cast hd
  have herror : (2 ^ 53 - 1) * n ≤ 2 ^ 53 * (d * roundUnits n d) ∧
      2 ^ 53 * (d * roundUnits n d) ≤ (2 ^ 53 + 1) * n := by
    rcases zero_or_large_of_moderate hd hn ha with rfl | hlarge
    · rw [roundUnits_zero hd]
      omega
    · exact roundUnits_error hd hlarge
  have hlower : ((2 : ℚ) ^ 53 - 1) * n ≤ 2 ^ 53 * (d * roundUnits n d) := by
    have hcast : ((2 ^ 53 - 1 : ℕ) : ℚ) = 2 ^ 53 - 1 := by norm_num
    rw [← hcast]
    exact_mod_cast herror.1
  have hupper : 2 ^ 53 * ((d : ℚ) * roundUnits n d) ≤ (2 ^ 53 + 1) * n := by exact_mod_cast herror.2
  rw [hn] at hlower hupper
  constructor
  · rw [pow_one, le_div_iff₀ hone]
    refine le_of_mul_le_mul_left ?_ (mul_pos (by positivity : (0 : ℚ) < 2 ^ 53) hdq)
    calc 2 ^ 53 * (d : ℚ) * ((1 - unitRoundoff) * a * (unitsPerOne : ℚ))
        = (2 ^ 53 - 1) * (a * unitsPerOne * d) := by unfold unitRoundoff; ring
      _ ≤ 2 ^ 53 * (d * (roundUnits n d : ℚ)) := hlower
      _ = 2 ^ 53 * d * (roundUnits n d : ℚ) := (mul_assoc _ _ _).symm
  · rw [pow_one, div_le_iff₀ hone]
    refine le_of_mul_le_mul_left ?_ (mul_pos (by positivity : (0 : ℚ) < 2 ^ 53) hdq)
    calc 2 ^ 53 * d * (roundUnits n d : ℚ) = 2 ^ 53 * (d * roundUnits n d) := mul_assoc _ _ _
      _ ≤ (2 ^ 53 + 1) * (a * unitsPerOne * d) := hupper
      _ = 2 ^ 53 * d * ((1 + unitRoundoff) * a * unitsPerOne) := by unfold unitRoundoff; ring

/-- The double nearest to a moderate fraction. -/
theorem exists_value_ofUnitRatio (hd : 0 < d) (hn : (n : ℚ) = a * unitsPerOne * d)
    (ha : Moderate 200 a) : ∃ b, HasValue (ofUnitRatio false n d) b ∧ Near 1 a b := by
  have hlt := roundUnits_lt_unitsLimit_of_moderate hd hn ha
  have hvalue : HasValue (ofUnitRatio false n d) (roundUnits n d / unitsPerOne) :=
    ⟨roundUnits n d, representable_roundUnits hlt, dif_pos hlt,
      (div_mul_cancel₀ _ unitsPerOne_cast_pos.ne').symm⟩
  exact ⟨_, hvalue, near_roundUnits hd hn ha⟩

end Quotient

/-! ## Operations -/

theorem exists_value_ofRatio {n d : ℕ} (hd : 0 < d) (h : Moderate 200 ((n : ℚ) / d)) :
    ∃ b, HasValue (ofRatio false n d) b ∧ Near 1 ((n : ℚ) / d) b := by
  have hdq : (d : ℚ) ≠ 0 := by exact_mod_cast hd.ne'
  refine exists_value_ofUnitRatio hd ?_ h
  push_cast
  field_simp

theorem exists_value_mul {x y : Binary64} {a b : ℚ} (hx : HasValue x a) (hy : HasValue y b)
    (h : Moderate 200 (a * b)) : ∃ c, HasValue (mul x y) c ∧ Near 1 (a * b) c := by
  obtain ⟨u, hu, rfl, ha⟩ := hx
  obtain ⟨v, hv, rfl, hb⟩ := hy
  refine exists_value_ofUnitRatio unitsPerOne_pos ?_ h
  push_cast
  rw [ha, hb]
  ring

theorem exists_value_div {x y : Binary64} {a b : ℚ} (hx : HasValue x a) (hy : HasValue y b)
    (hb : b ≠ 0) (h : Moderate 200 (a / b)) :
    y.isZero = false ∧ ∃ c, HasValue (div x y) c ∧ Near 1 (a / b) c := by
  obtain ⟨u, hu, rfl, hau⟩ := hx
  obtain ⟨v, hv, rfl, hbv⟩ := hy
  have hone := unitsPerOne_cast_pos
  have hne : v ≠ 0 := by
    rintro rfl
    rw [Nat.cast_zero] at hbv
    exact mul_ne_zero hb hone.ne' hbv.symm
  refine ⟨by simpa [isZero] using hne, ?_⟩
  show ∃ c, HasValue (if v = 0 then _ else ofUnitRatio (false != false) (u * unitsPerOne) v) c ∧ _
  rw [if_neg hne]
  refine exists_value_ofUnitRatio (Nat.pos_of_ne_zero hne) ?_ h
  push_cast
  rw [hau, hbv]
  field_simp

theorem exists_value_add {x y : Binary64} {a b : ℚ} (hx : HasValue x a) (hy : HasValue y b)
    (h : Moderate 200 (a + b)) : ∃ c, HasValue (add x y) c ∧ Near 1 (a + b) c := by
  obtain ⟨u, hu, rfl, ha⟩ := hx
  obtain ⟨v, hv, rfl, hb⟩ := hy
  show ∃ c, HasValue (if ((u : Int) + v) = 0 then zero (false && false)
    else ofUnitRatio (decide ((u : Int) + v < 0)) ((u : Int) + v).natAbs 1) c ∧ _
  have hsum : ((u + v : ℕ) : ℚ) = (a + b) * unitsPerOne := by
    push_cast
    rw [ha, hb]
    ring
  by_cases hzero : (u : Int) + v = 0
  · have hab : a + b = 0 := by
      have h0 : u + v = 0 := by omega
      rw [h0, Nat.cast_zero] at hsum
      exact (mul_eq_zero.1 hsum.symm).resolve_right unitsPerOne_cast_pos.ne'
    rw [if_pos hzero, hab]
    refine ⟨0, ⟨0, representable_zero, rfl, by simp⟩, ?_⟩
    constructor <;> simp
  · have hsign : decide ((u : Int) + v < 0) = false := decide_eq_false (by omega)
    have habs : ((u : Int) + v).natAbs = u + v := by omega
    rw [if_neg hzero, hsign, habs]
    refine exists_value_ofUnitRatio Nat.one_pos ?_ h
    rw [hsum, Nat.cast_one, mul_one]

/-! ## Exact values -/

theorem exists_unitsPerHalf : ∃ e, unitsPerHalf = 2 ^ (e + 53) ∧ unitsPerOne = 2 ^ (e + 54) ∧
    2 ^ (e + 120) ≤ unitsLimit :=
  ⟨1020, by decide +kernel⟩

theorem representable_mul_two_pow {c e f : ℕ} (hc : c ≤ 2 ^ 53) (he : e < f + 7)
    (hf : 2 ^ (f + 60) ≤ unitsLimit) : Representable (c * 2 ^ e) := by
  refine representable_mul_spacing hc (Nat.lt_of_lt_of_le ?_ hf)
  calc c * 2 ^ e ≤ 2 ^ 53 * 2 ^ e := Nat.mul_le_mul_right _ hc
    _ = 2 ^ (53 + e) := (Nat.pow_add 2 53 _).symm
    _ < 2 ^ (f + 60) := Nat.pow_lt_pow_right (by decide) (by omega)

theorem two_mul_unitsPerHalf : 2 * unitsPerHalf = unitsPerOne := by
  obtain ⟨e, hhalf, hone, -⟩ := exists_unitsPerHalf
  rw [hhalf, hone, ← Nat.pow_succ']

theorem representable_unitsPerHalf : Representable unitsPerHalf := by
  obtain ⟨e, hhalf, -, hlimit⟩ := exists_unitsPerHalf
  rw [hhalf, ← Nat.one_mul (2 ^ _)]
  exact representable_mul_two_pow (by decide) (by omega) hlimit

theorem half_eq : half = finite false unitsPerHalf representable_unitsPerHalf := by decide +kernel

/-- Whole numbers of up to 53 digits, and 2⁵³, are doubles. -/
theorem representable_mul_unitsPerOne {k : ℕ} (h : k ≤ 2 ^ 53) : Representable (k * unitsPerOne) := by
  obtain ⟨e, -, hone, hlimit⟩ := exists_unitsPerHalf
  rw [hone]
  exact representable_mul_two_pow h (by omega) hlimit

theorem hasValue_ofInt {n : ℕ} (h : n < 2 ^ 53) : HasValue (ofInt n) n := by
  have hfits := representable_mul_unitsPerOne h.le
  have hround : roundUnits (n * unitsPerOne) 1 = n * unitsPerOne := roundUnits_of_representable hfits
  have hsign : decide ((n : Int) < 0) = false := decide_eq_false (by omega)
  have hunits : ofInt n = ofUnitRatio false (n * unitsPerOne) 1 := by
    unfold ofInt ofRatio
    rw [hsign, Int.natAbs_natCast]
  refine ⟨n * unitsPerOne, hfits, ?_, Nat.cast_mul n unitsPerOne⟩
  rw [hunits]
  unfold ofUnitRatio
  rw [dif_pos (Nat.lt_of_le_of_lt (Nat.le_of_eq hround) hfits.1)]
  congr 1

theorem hasValue_half : HasValue half (1 / 2) := by
  refine ⟨unitsPerHalf, _, half_eq, ?_⟩
  rw [← two_mul_unitsPerHalf]
  push_cast
  ring

/-- The greatest whole number below a double is that below its value. -/
theorem floor_of_hasValue {x : Binary64} {q : ℚ} (h : HasValue x q) : x.floor? = some ⌊q⌋ := by
  obtain ⟨u, fits, rfl, hu⟩ := h
  have hq : q = (u : ℚ) / unitsPerOne := by
    rw [hu, mul_div_cancel_right₀ _ unitsPerOne_cast_pos.ne']
  show some ((u : Int) / (unitsPerOne : Int)) = _
  rw [hq, Rat.floor_natCast_div_natCast]

/-- Doubles are ordered like their values. -/
theorem lt_of_hasValue {x y : Binary64} {a b : ℚ} (hx : HasValue x a) (hy : HasValue y b) :
    x.lt y = decide (a < b) := by
  obtain ⟨u, hu, rfl, ha⟩ := hx
  obtain ⟨v, hv, rfl, hb⟩ := hy
  show decide ((u : Int) < v) = _
  refine decide_eq_decide.2 ?_
  have hiff : (u : ℚ) < v ↔ a < b := by
    rw [ha, hb]
    exact mul_lt_mul_iff_left₀ unitsPerOne_cast_pos
  rw [← hiff, Int.ofNat_lt, Nat.cast_lt]

end Binary64

end ImageSizing
