import Mathlib.Algebra.Order.Round
import ImageSizing.Proofs.Binary64.AddHalf
import ImageSizing.Proofs.Number.Quotient

/-!
# Rounding half up

The whole number that a fraction is rounded to is half a one away at most, the upper one of two
(`IsHalfUp`).  Numbers are rounded to pixels in double precision, and that gives this whole
number for every double but two kinds: the last one below one half, and the odd whole numbers of
53 digits.  Those come out one too large (`CarriesOver`).  An integer that no double has as its
value is rounded to a double first.
-/

namespace ImageSizing

/-- The whole number that is half a one away at most, the upper one of two. -/
structure IsHalfUp (q : ℚ) (n : ℤ) : Prop where
  lower : n - 1 / 2 ≤ q
  upper : q < n + 1 / 2

/-- There is exactly one. -/
theorem isHalfUp_iff {q : ℚ} {n : ℤ} : IsHalfUp q n ↔ n = round q := by
  rw [round_eq, eq_comm, Int.floor_eq_iff]
  constructor
  · intro h
    exact ⟨by linarith [h.lower], by linarith [h.upper]⟩
  · rintro ⟨hlower, hupper⟩
    exact ⟨by linarith, by linarith⟩

/-- Fractions for which the sum with one half is rounded up to the next whole number. -/
def CarriesOver (q : ℚ) : Prop :=
  q = 1 / 2 - 1 / 2 ^ 54 ∨ ∃ k : ℤ, q = k ∧ Odd k ∧ 2 ^ 52 < |k| ∧ |k| < 2 ^ 53

namespace Binary64

theorem two_mul_unitsPerHalf_cast : (2 * unitsPerHalf : ℚ) = unitsPerOne := by
  exact_mod_cast two_mul_unitsPerHalf

theorem round_units (n : ℤ) : round ((n : ℚ) / unitsPerOne) = (n + unitsPerHalf) / unitsPerOne := by
  have hone := unitsPerOne_cast_pos
  have hhalf : (unitsPerHalf : ℚ) / unitsPerOne = 1 / 2 := by
    rw [div_eq_iff hone.ne']
    linarith [two_mul_unitsPerHalf_cast]
  have hsum : (n : ℚ) / unitsPerOne + 1 / 2 = ((n + unitsPerHalf : ℤ) : ℚ) / unitsPerOne := by
    rw [← hhalf, ← add_div]
    push_cast
    rfl
  rw [round_eq, hsum, Rat.floor_intCast_div_natCast]

theorem oddWhole_natAbs_iff (n : ℤ) :
    OddWhole n.natAbs ↔ ∃ k : ℤ, n = k * unitsPerOne ∧ Odd k ∧ 2 ^ 52 < |k| ∧ |k| < 2 ^ 53 := by
  constructor
  · rintro ⟨k, hk, hodd, hlow, hhigh⟩
    rcases Int.natAbs_eq n with hn | hn
    · refine ⟨k, ?_, ?_, ?_, ?_⟩
      · rw [hn, hk, Nat.cast_mul]
      · exact (Int.odd_coe_nat k).2 (Nat.odd_iff.2 hodd)
      · rw [Nat.abs_cast]
        exact_mod_cast hlow
      · rw [Nat.abs_cast]
        exact_mod_cast hhigh
    · refine ⟨-k, ?_, ?_, ?_, ?_⟩
      · rw [hn, hk, Nat.cast_mul, neg_mul]
      · exact ((Int.odd_coe_nat k).2 (Nat.odd_iff.2 hodd)).neg
      · rw [abs_neg, Nat.abs_cast]
        exact_mod_cast hlow
      · rw [abs_neg, Nat.abs_cast]
        exact_mod_cast hhigh
  · rintro ⟨k, rfl, hodd, hlow, hhigh⟩
    rw [Int.abs_eq_natAbs] at hlow hhigh
    refine ⟨k.natAbs, ?_, ?_, ?_, ?_⟩
    · rw [Int.natAbs_mul, Int.natAbs_natCast]
    · exact Nat.odd_iff.1 (Int.natAbs_odd.2 hodd)
    · exact_mod_cast hlow
    · exact_mod_cast hhigh

/-- The last double below one half in units. -/
theorem units_eq_below_half_iff {n : ℤ} :
    (n : ℚ) / unitsPerOne = 1 / 2 - 1 / 2 ^ 54 ↔ n + belowHalf = unitsPerHalf := by
  have hone := unitsPerOne_cast_pos
  have hbelow : (belowHalf * 2 ^ 54 : ℚ) = unitsPerOne := by
    rw [← belowHalf_mul, Nat.cast_mul, Nat.cast_pow, Nat.cast_ofNat]
  have hhalf := two_mul_unitsPerHalf_cast
  have hright : (1 / 2 - 1 / 2 ^ 54) * (unitsPerOne : ℚ) = unitsPerHalf - belowHalf := by
    linarith
  rw [div_eq_iff hone.ne', hright, eq_sub_iff_add_eq, ← Int.cast_inj (α := ℚ), Int.cast_add,
    Int.cast_natCast, Int.cast_natCast]

/-- The fractions at which the sum is rounded up, in units. -/
theorem carriesOver_units_iff (n : ℤ) :
    CarriesOver ((n : ℚ) / unitsPerOne) ↔ n + belowHalf = unitsPerHalf ∨ OddWhole n.natAbs := by
  unfold CarriesOver
  rw [units_eq_below_half_iff, oddWhole_natAbs_iff]
  exact or_congr_right (exists_congr fun k => and_congr_left' units_eq_intCast_iff)

end Binary64

namespace Number

/-- The exact value of an integer or of a finite double. -/
def value? : Number → Option ℚ
  | .int n => some n
  | .float x => x.value?

open Binary64

theorem roundHalfUp_of_floor {x : Binary64} {k : ℤ} (h : (x.add half).floor? = some k) :
    (float x).roundHalfUp = .ok k := by
  show floor (x.add half) = _
  unfold floor
  rw [h]

theorem roundHalfUp_of_toBinary64 {v : Number} {x : Binary64} (h : v.toBinary64 = .ok x) :
    v.roundHalfUp = (float x).roundHalfUp := by
  unfold roundHalfUp
  rw [h]
  rfl

/-- Doubles are rounded half up, but those that carry over come out one too large. -/
theorem roundHalfUp_float {x : Binary64} {q : ℚ} (h : x.value? = some q) :
    (CarriesOver q → (float x).roundHalfUp = .ok (round q + 1)) ∧
      (¬CarriesOver q → (float x).roundHalfUp = .ok (round q)) := by
  obtain ⟨n, hn, rfl⟩ := exists_signedUnits h
  obtain ⟨hcarry, hexact⟩ := floor?_add_half hn
  rw [round_units, carriesOver_units_iff]
  exact ⟨fun h => roundHalfUp_of_floor (hcarry h), fun h => roundHalfUp_of_floor (hexact h)⟩

/-! ## Integers -/

theorem isHalfUp_intCast (n : ℤ) : IsHalfUp n n := isHalfUp_iff.2 (round_intCast n).symm

/-- Among the integers only odd ones of 53 digits carry over. -/
theorem carriesOver_intCast_iff {n : ℤ} :
    CarriesOver n ↔ Odd n ∧ 2 ^ 52 < |n| ∧ |n| < 2 ^ 53 := by
  have hwhole : (n : ℚ) ≠ 1 / 2 - 1 / 2 ^ 54 := by
    intro h
    have hscaled : ((2 ^ 54 * n : ℤ) : ℚ) = ((2 ^ 53 - 1 : ℤ) : ℚ) := by
      push_cast
      rw [h]
      norm_num
    have hint : 2 ^ 54 * n = 2 ^ 53 - 1 := Int.cast_injective hscaled
    omega
  unfold CarriesOver
  rw [or_iff_right hwhole]
  constructor
  · rintro ⟨k, hk, h⟩
    rwa [Int.cast_injective hk]
  · intro h
    exact ⟨n, rfl, h⟩

/-- An integer that is a double is the value of the double nearest to it. -/
theorem toBinary64_of_isDouble {n : ℤ} (h : IsDouble n) :
    ∃ x, (int n).toBinary64 = .ok x ∧ x.value? = some (n : ℚ) := by
  have fits := isDouble_intCast_iff.1 h
  have hround := roundUnits_of_representable fits
  have hlt : roundUnits (n.natAbs * unitsPerOne) 1 < unitsLimit := by
    rw [hround]
    exact fits.1
  refine ⟨ofInt n, ?_, ?_⟩
  · rw [toBinary64_int, ofInt_eq hlt]
    rfl
  · rw [ofInt_eq hlt, value?_finite_whole _ _ hround, signed_natAbs]

/-- Any other integer has the double nearest to it, which is another integer and is not changed by
rounding it, or no double at all. -/
theorem roundHalfUp_of_not_isDouble {n : ℤ} (h : ¬IsDouble n) :
    (int n).roundHalfUp = .error .integerTooLarge ∨
      ∃ m : ℤ, m ≠ n ∧ (ofInt n).value? = some (m : ℚ) ∧ (int n).roundHalfUp = .ok m := by
  by_cases hlt : roundUnits (n.natAbs * unitsPerOne) 1 < unitsLimit
  · right
    obtain ⟨k, hwhole, -, hlarge⟩ := exists_roundUnits_whole hlt
    obtain ⟨-, heven⟩ := hlarge fun fits => h (isDouble_intCast_iff.2 fits)
    have hvalue := value?_finite_whole (decide (n < 0)) (representable_roundUnits hlt) hwhole
    rw [← ofInt_eq hlt] at hvalue
    generalize hm : (if decide (n < 0) = true then -(k : ℤ) else k) = m at hvalue
    have hstays : ¬CarriesOver m := by
      rw [carriesOver_intCast_iff, ← Int.not_even_iff_odd, not_and_or, not_not]
      left
      rw [← hm, Int.even_iff]
      split <;> omega
    have hfloat := (roundHalfUp_float hvalue).2 hstays
    rw [round_intCast] at hfloat
    refine ⟨m, ?_, hvalue, ?_⟩
    · rintro rfl
      exact h ⟨_, hvalue⟩
    · have hdouble : (int n).toBinary64 = .ok (ofInt n) := by
        rw [toBinary64_int, ofInt_eq hlt]
        rfl
      rw [roundHalfUp_of_toBinary64 hdouble, hfloat]
  · left
    have hinfinite : ofInt n = .infinite (decide (n < 0)) := dif_neg hlt
    unfold roundHalfUp
    rw [toBinary64_int, hinfinite]
    rfl

/-! ## All numbers -/

/-- Fractions that come out as the whole number half a one away at most. -/
def RoundsRight (q : ℚ) : Prop := IsDouble q ∧ ¬CarriesOver q

theorem roundHalfUp_of_isDouble {v : Number} {q : ℚ} (h : v.value? = some q) (hd : IsDouble q) :
    (CarriesOver q → v.roundHalfUp = .ok (round q + 1)) ∧
      (¬CarriesOver q → v.roundHalfUp = .ok (round q)) := by
  cases v with
  | float x => exact roundHalfUp_float h
  | int n =>
    obtain rfl : (n : ℚ) = q := Option.some.inj h
    obtain ⟨x, hx, hvalue⟩ := toBinary64_of_isDouble hd
    rw [roundHalfUp_of_toBinary64 hx]
    exact roundHalfUp_float hvalue

/-- A number with an exact value that no double has is an integer. -/
theorem exists_int_of_not_isDouble {v : Number} {q : ℚ} (h : v.value? = some q) (hd : ¬IsDouble q) :
    ∃ n : ℤ, v = .int n ∧ q = n := by
  cases v with
  | float x => exact absurd ⟨x, h⟩ hd
  | int n => exact ⟨n, rfl, (Option.some.inj h).symm⟩

/-- When a number is rounded half up. -/
theorem roundHalfUp_iff {v : Number} {q : ℚ} (h : v.value? = some q) :
    v.roundHalfUp = .ok (round q) ↔ RoundsRight q := by
  constructor
  · intro hround
    by_cases hd : IsDouble q
    · refine ⟨hd, fun hcarry => ?_⟩
      rw [(roundHalfUp_of_isDouble h hd).1 hcarry] at hround
      have := Except.ok.inj hround
      omega
    · exfalso
      obtain ⟨n, rfl, rfl⟩ := exists_int_of_not_isDouble h hd
      rw [round_intCast] at hround
      rcases roundHalfUp_of_not_isDouble hd with hfault | ⟨m, hne, _, hm⟩
      · rw [hfault] at hround
        cases hround
      · rw [hm] at hround
        exact hne (Except.ok.inj hround)
  · intro hright
    exact (roundHalfUp_of_isDouble h hright.1).2 hright.2

/-- Integers of up to 52 digits, and 2⁵², come out right. -/
theorem roundsRight_intCast {n : ℤ} (h : |n| ≤ 2 ^ 52) : RoundsRight n := by
  rw [Int.abs_eq_natAbs] at h
  refine ⟨isDouble_intCast_iff.2 (representable_mul_unitsPerOne (by omega)), ?_⟩
  rw [carriesOver_intCast_iff, Int.abs_eq_natAbs]
  omega

/-- A natural number that is finite as a double is rounded to a natural number. -/
theorem exists_roundHalfUp_natCast {n : ℕ} (h : (int n).isFinite = true) :
    ∃ m : ℕ, (int n).roundHalfUp = .ok (m : ℤ) := by
  rw [isFinite_int] at h
  have hunits : ofInt n = ofUnitRatio false (n * unitsPerOne) 1 := by
    unfold ofInt ofRatio
    rw [decide_eq_false (by omega), Int.natAbs_natCast]
  have hdouble := toBinary64_int n
  rw [hunits] at h hdouble
  unfold ofUnitRatio at h hdouble
  by_cases hlt : roundUnits (n * unitsPerOne) 1 < unitsLimit
  · rw [dif_pos hlt] at hdouble
    rw [roundHalfUp_of_toBinary64 (x := finite false _ (representable_roundUnits hlt)) hdouble]
    exact ⟨_, roundHalfUp_of_floor (floor?_add_half_of_nonneg _)⟩
  · rw [dif_neg hlt] at h
    cases h

end Number

end ImageSizing
