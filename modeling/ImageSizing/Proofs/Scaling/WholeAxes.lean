import ImageSizing.Proofs.Binary64.RoundingError
import ImageSizing.Proofs.Number.Quotient
import ImageSizing.Proofs.Scaling.Shares

/-!
# Whole axes below 2³¹

Four roundings lie between a wanted axis and its pixels: the share `n / w` of the real axis,
two more where the share is inferred from the other axis, the product with the real axis, and
the sum with one half.  `RoundsTo` follows the last two.  Below 2³¹ all of them together are
off by far less than half a pixel, so that the pixels can be compared with the wanted axis as
if nothing had been rounded (`RoundsTo.le`, `RoundsTo.ge`).
-/

namespace ImageSizing

open Binary64

namespace Number

/-- Whole numbers of up to 53 digits go into calculations as they are. -/
theorem toBinary64_natCast {n : ℕ} (h : n < 2 ^ 53) : (int n).toBinary64 = .ok (Binary64.ofInt n) := by
  rw [toBinary64_int]
  exact finiteOr_eq_ok (hasValue_ofInt h).isFinite

theorem isFinite_natCast {n : ℕ} (h : n < 2 ^ 53) : (int n).isFinite = true := by
  rw [isFinite_int]
  exact (hasValue_ofInt h).isFinite

/-- The quotient of two whole numbers is rounded once. -/
theorem exists_div_natCast {m n : ℕ} (hn : 0 < n) (h : Moderate 200 ((m : ℚ) / n)) :
    ∃ x b, (int m).div (int n) = .ok x ∧ HasValue x b ∧ Near 1 ((m : ℚ) / n) b := by
  obtain ⟨b, hvalue, hnear⟩ := exists_value_ofRatio hn h
  have hsign : (decide ((m : Int) < 0) != decide ((n : Int) < 0)) = false := by
    rw [decide_eq_false (by omega), decide_eq_false (by omega)]
    rfl
  refine ⟨ofRatio false m n, b, ?_, hvalue, hnear⟩
  show (if (n : Int) = 0 then _ else finiteOr .quotientTooLarge
    (ofRatio (decide ((m : Int) < 0) != decide ((n : Int) < 0)) (m : Int).natAbs (n : Int).natAbs)) = _
  rw [if_neg (by omega), hsign, Int.natAbs_natCast, Int.natAbs_natCast]
  exact finiteOr_eq_ok hvalue.isFinite

/-- So is the product of a double and a whole number. -/
theorem exists_mul_natCast {x : Binary64} {a : ℚ} {n : ℕ} (hx : HasValue x a) (hn : n < 2 ^ 53)
    (h : Moderate 200 (a * n)) :
    ∃ y b, (float x).mul (int n) = .ok (float y) ∧ HasValue y b ∧ Near 1 (a * n) b := by
  obtain ⟨b, hvalue, hnear⟩ := exists_value_mul hx (hasValue_ofInt hn) h
  exact ⟨_, b, mul_doubles rfl (toBinary64_natCast hn) nofun, hvalue, hnear⟩

/-- And their quotient. -/
theorem exists_float_div_natCast {x : Binary64} {a : ℚ} {n : ℕ} (hx : HasValue x a) (hpos : 0 < n)
    (hn : n < 2 ^ 53) (h : Moderate 200 (a / n)) :
    ∃ y b, (float x).div (int n) = .ok y ∧ HasValue y b ∧ Near 1 (a / n) b := by
  have hne : (n : ℚ) ≠ 0 := by exact_mod_cast hpos.ne'
  obtain ⟨hzero, b, hvalue, hnear⟩ := exists_value_div hx (hasValue_ofInt hn) hne h
  exact ⟨_, b, div_doubles rfl (toBinary64_natCast hn) hzero nofun, hvalue, hnear⟩

end Number

/-! ## Rounding to whole pixels -/

/-- What a fraction comes to that is rounded, has one half added to it, is rounded again and
cut off. -/
def RoundsTo (a : ℚ) (m : ℕ) : Prop := ∃ b c, Near 1 a b ∧ Near 1 (b + 1 / 2) c ∧ (m : ℤ) = ⌊c⌋

namespace RoundsTo

variable {a : ℚ} {m n : ℕ}

/-- Three roundings above a whole number the result is not above it. -/
theorem le (h : RoundsTo a m) (hn : n < 2 ^ 31) (ha : a ≤ (1 + unitRoundoff) ^ 3 * n) : m ≤ n := by
  obtain ⟨b, c, hb, hc, hm⟩ := h
  have hnq : (n : ℚ) ≤ 2147483648 := by exact_mod_cast le_of_lt hn
  have hn0 : (0 : ℚ) ≤ n := Nat.cast_nonneg n
  have hbn : b ≤ (1 + unitRoundoff) * ((1 + unitRoundoff) ^ 3 * n) := by
    have hupper := hb.upper
    rw [pow_one] at hupper
    exact le_trans hupper (mul_le_mul_of_nonneg_left ha (by linarith [unitRoundoff_nonneg]))
  have hcn : c < n + 1 := by
    have hupper := hc.upper
    unfold unitRoundoff at hbn hupper
    rw [pow_one] at hupper
    norm_num at hbn hupper
    linarith
  have hfloor : ⌊c⌋ < (n : ℤ) + 1 := by
    rw [Int.floor_lt]
    exact_mod_cast hcn
  omega

/-- Three roundings below a whole number the result is not below it. -/
theorem ge (h : RoundsTo a m) (hn : n < 2 ^ 31) (ha : (1 - unitRoundoff) ^ 3 * n ≤ a) : n ≤ m := by
  obtain ⟨b, c, hb, hc, hm⟩ := h
  have hnq : (n : ℚ) ≤ 2147483648 := by exact_mod_cast le_of_lt hn
  have hn0 : (0 : ℚ) ≤ n := Nat.cast_nonneg n
  have hbn : (1 - unitRoundoff) * ((1 - unitRoundoff) ^ 3 * n) ≤ b := by
    have hlower := hb.lower
    rw [pow_one] at hlower
    exact le_trans (mul_le_mul_of_nonneg_left ha (by linarith [unitRoundoff_le_one])) hlower
  have hcn : (n : ℚ) ≤ c := by
    have hlower := hc.lower
    unfold unitRoundoff at hbn hlower
    rw [pow_one] at hlower
    norm_num at hbn hlower
    linarith
  have hfloor : (n : ℤ) ≤ ⌊c⌋ := by
    rw [Int.le_floor]
    exact_mod_cast hcn
  omega

/-- What is three roundings away from a whole number is rounded to it. -/
theorem eq_of_near (h : RoundsTo a m) (hn : n < 2 ^ 31) (ha : Near 3 n a) : m = n :=
  le_antisymm (h.le hn ha.upper) (h.ge hn ha.lower)

end RoundsTo

/-- A moderate double is rounded to whole pixels. -/
theorem exists_roundHalfUp_of_near {x : Binary64} {a b : ℚ} {k : ℕ} (hx : HasValue x b)
    (ha : Moderate k a) (hk : k ≤ 190) (hnear : Near 1 a b) :
    ∃ m : ℕ, (Number.float x).roundHalfUp = .ok m ∧ RoundsTo a m := by
  have hb : Moderate (k + 1) b := ha.near hnear
  have hsum : Moderate 200 (b + 1 / 2) := hb.add_half.mono (by omega)
  obtain ⟨c, hvalue, hc⟩ := exists_value_add hx hasValue_half hsum
  have hc0 : 0 ≤ c := (hsum.near hc).nonneg
  have hfloor : ((⌊c⌋.toNat : ℕ) : ℤ) = ⌊c⌋ := Int.toNat_of_nonneg (Int.floor_nonneg.2 hc0)
  refine ⟨⌊c⌋.toNat, ?_, b, c, hnear, hc, hfloor⟩
  show Number.floor (x.add half) = _
  unfold Number.floor
  rw [floor_of_hasValue hvalue, hfloor]

/-! ## Shares -/

namespace Scaling

section Axes

variable {m n w h : ℕ}

theorem moderate_ratio (hm : m < 2 ^ 31) (hn : n < 2 ^ 31) : Moderate 62 ((m : ℚ) / n) := by
  have hratio : Moderate (31 + 31) ((m : ℚ) / n) :=
    (Moderate.of_natCast hm).div (Moderate.of_natCast hn)
  exact hratio

/-- The share of a whole axis is one rounding away. -/
theorem exists_share_natCast (hm : m < 2 ^ 31) (hpos : 0 < n) (hn : n < 2 ^ 31) :
    ∃ x b, (Dimension.pixel (.int m)).share? (.int n) = some (.float x) ∧ HasValue x b ∧
      Near 1 ((m : ℚ) / n) b ∧ Moderate 63 b := by
  obtain ⟨x, b, hdiv, hvalue, hnear⟩ :=
    Number.exists_div_natCast hpos ((moderate_ratio hm hn).mono (by omega))
  refine ⟨x, b, ?_, hvalue, hnear, (moderate_ratio hm hn).near hnear⟩
  show ((Number.int m).div (.int n)).toOption.map Number.float = _
  rw [hdiv]
  rfl

theorem inferredShare?_of_ok {share axis p : Number} {q : Binary64} (hp : share.mul axis = .ok p)
    (hq : p.div axis = .ok q) : inferredShare? share axis = some (.float q) := by
  unfold inferredShare?
  rw [hp]
  show ((p.div axis).toOption.map Number.float) = _
  rw [hq]
  rfl

/-- Inferring the share of the other axis takes two roundings more. -/
theorem exists_inferredShare_natCast {x : Binary64} {a b : ℚ} (ha : Moderate 62 a)
    (hx : HasValue x b) (hnear : Near 1 a b) (hpos : 0 < h) (hh : h < 2 ^ 31) :
    ∃ y c, inferredShare? (.float x) (.int h) = some (.float y) ∧ HasValue y c ∧ Near 3 a c ∧
      Moderate 127 c := by
  have hhq : Moderate 31 (h : ℚ) := Moderate.of_natCast hh
  have hne : (h : ℚ) ≠ 0 := by exact_mod_cast hpos.ne'
  have hb : Moderate 63 b := ha.near hnear
  obtain ⟨p, d, hmul, hp, hd⟩ := Number.exists_mul_natCast hx (by omega) ((hb.mul hhq).mono (by omega))
  have hdm : Moderate 95 d := (hb.mul hhq).near hd
  obtain ⟨y, c, hdiv, hy, hc⟩ :=
    Number.exists_float_div_natCast hp hpos (by omega) ((hdm.div hhq).mono (by omega))
  have htwo : Near 2 b c := by
    have hback : Near 1 b (d / h) := by
      have hquot := hd.div_right (c := (h : ℚ)) hhq.nonneg
      rwa [mul_div_cancel_right₀ b hne] at hquot
    exact hback.trans hc
  exact ⟨y, c, inferredShare?_of_ok hmul hdiv, hy, hnear.trans htwo, (hdm.div hhq).near hc⟩

/-! ## The chosen factor -/

/-- The choice between two fractions. -/
def Choice.pickValue : Choice → ℚ → ℚ → ℚ
  | smaller => min
  | larger => max

/-- The chosen one of two doubles has the chosen value. -/
theorem exists_pick_float (c : Choice) {x y : Binary64} {a b : ℚ} (hx : HasValue x a)
    (hy : HasValue y b) :
    ∃ f, c.pick (.float x) (.float y) = .float f ∧ HasValue f (c.pickValue a b) := by
  cases c with
  | smaller =>
    have hiff : y.lt x = true ↔ b < a := by rw [lt_of_hasValue hy hx, decide_eq_true_iff]
    show ∃ f, (if y.lt x = true then Number.float y else .float x) = .float f ∧ HasValue f (min a b)
    by_cases hlt : b < a
    · rw [if_pos (hiff.2 hlt), min_eq_right hlt.le]
      exact ⟨y, rfl, hy⟩
    · rw [if_neg (mt hiff.1 hlt), min_eq_left (not_lt.1 hlt)]
      exact ⟨x, rfl, hx⟩
  | larger =>
    have hiff : x.lt y = true ↔ a < b := by rw [lt_of_hasValue hx hy, decide_eq_true_iff]
    show ∃ f, (if x.lt y = true then Number.float y else .float x) = .float f ∧ HasValue f (max a b)
    by_cases hlt : a < b
    · rw [if_pos (hiff.2 hlt), max_eq_right hlt.le]
      exact ⟨y, rfl, hy⟩
    · rw [if_neg (mt hiff.1 hlt), max_eq_left (not_lt.1 hlt)]
      exact ⟨x, rfl, hx⟩

theorem Choice.pickValue_eq (c : Choice) (a b : ℚ) : c.pickValue a b = a ∨ c.pickValue a b = b := by
  cases c with
  | smaller => exact min_choice a b
  | larger => exact max_choice a b

theorem Choice.pickValue_near (c : Choice) {k : ℕ} {q a b : ℚ} (ha : Near k q a) (hb : Near k q b) :
    Near k q (c.pickValue a b) := by
  rcases c.pickValue_eq a b with h | h
  · rw [h]
    exact ha
  · rw [h]
    exact hb

/-- The pixels that a factor makes of a real axis. -/
theorem exists_pixels {f : Binary64} {b : ℚ} {k : ℕ} (hf : HasValue f b) (hb : Moderate k b)
    (hk : k ≤ 127) (hn : n < 2 ^ 31) :
    ∃ p m, (Number.float f).mul (.int n) = .ok (.float p) ∧ p.isFinite = true ∧
      (Number.float p).roundHalfUp = .ok ((m : ℕ) : ℤ) ∧ RoundsTo (b * n) m := by
  have hmod : Moderate (k + 31) (b * n) := hb.mul (Moderate.of_natCast hn)
  obtain ⟨p, d, hmul, hp, hd⟩ := Number.exists_mul_natCast hf (by omega) (hmod.mono (by omega))
  obtain ⟨m, hround, hto⟩ := exists_roundHalfUp_of_near hp hmod (by omega) hd
  exact ⟨p, m, hmul, hp.isFinite, hround, hto⟩

/-- A factor near a share of a real axis gives that many pixels of it. -/
theorem near_pixels {b : ℚ} {k : ℕ} (hpos : 0 < n) (h : Near k ((m : ℚ) / n) b) : Near k m (b * n) := by
  have hne : (n : ℚ) ≠ 0 := by exact_mod_cast hpos.ne'
  have hmul := h.mul_right (c := (n : ℚ)) (Nat.cast_nonneg n)
  rwa [div_mul_cancel₀ _ hne] at hmul

end Axes

end Scaling

end ImageSizing
