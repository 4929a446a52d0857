import Mathlib.Algebra.Order.Ring.Abs
import Mathlib.Algebra.Ring.Parity
import Mathlib.Data.Nat.Cast.Order.Field
import ImageSizing.Proofs.Binary64.RoundingError

/-!
# The nearest double

What it is for a double to be the one nearest to a fraction, without a word on how it is found:
no other double is nearer, and if another one is as near, the significand is even (`IsNearest`).
There is only one such double, and rounding gives it.  Fractions halfway beyond the largest
double and above have none:

    Rounds s (n / d) x ↔ ofRatio s n d = x ∧ x.isFinite = true      (rounds_iff)
-/

namespace ImageSizing

/-- A quotient halfway between two whole numbers is rounded to the even one. -/
theorem roundQuotient_even {n d : Nat} (hd : 0 < d)
    (h : 2 * n = 2 * (d * roundQuotient n d) + d ∨ 2 * n + d = 2 * (d * roundQuotient n d)) :
    roundQuotient n d % 2 = 0 := by
  have hsplit : d * (n / d) + n % d = n := Nat.div_add_mod n d
  have hmod : n % d < d := Nat.mod_lt n hd
  have hup : d * (n / d + 1) = d * (n / d) + d := by rw [Nat.mul_add, Nat.mul_one]
  unfold roundQuotient at h ⊢
  split at h
  · omega
  · split at h
    · omega
    · rename_i hlow hhigh
      rw [if_neg hlow, if_neg hhigh]
      omega

namespace Binary64

/-- A count of units to which no other that a double can hold is nearer; if another one is as
near, its significand is even. -/
structure IsNearest (q : ℚ) (u : ℕ) : Prop where
  fits : Representable u
  nearest : ∀ v, Representable v → |q - u| ≤ |q - v|
  even : ∀ v, Representable v → v ≠ u → |q - v| = |q - u| → Even (u / spacing u)

/-! ## The grid around a quotient -/

theorem spacing_eq_one {k : ℕ} (h : k.log2 < 52) : spacing k = 1 := by
  unfold spacing
  rw [Nat.sub_eq_zero_of_le h.le]

/-- What a double can hold is on the grid around a quotient, or below a point of the grid that
the quotient has reached. -/
theorem on_grid {v : ℕ} (hv : Representable v) (k : ℕ) :
    spacing k ∣ v ∨ ∃ b, spacing k ∣ b ∧ v < b ∧ b ≤ k := by
  rcases Nat.lt_or_ge k.log2 52 with hlow | hhigh
  · left
    rw [spacing_eq_one hlow]
    exact Nat.one_dvd v
  · have hne : k ≠ 0 := ne_zero_of_le_log2 hhigh
    rcases Nat.lt_or_ge v (2 ^ k.log2) with hbelow | habove
    · right
      exact ⟨2 ^ k.log2, Nat.pow_dvd_pow 2 (Nat.sub_le _ _), hbelow, Nat.log2_self_le hne⟩
    · left
      have hvne : v ≠ 0 := Nat.ne_of_gt (Nat.lt_of_lt_of_le (Nat.two_pow_pos _) habove)
      have hlog : k.log2 ≤ v.log2 := (Nat.le_log2 hvne).2 habove
      exact Nat.dvd_trans (Nat.pow_dvd_pow 2 (Nat.sub_le_sub_right hlog 52)) hv.2

/-- An even point of the grid has an even significand. -/
theorem even_significand {r : ℕ} (k : ℕ) (hr : r ≤ 2 ^ 53) (heven : r % 2 = 0) :
    Even (r * spacing k / spacing (r * spacing k)) := by
  obtain ⟨e, he⟩ : ∃ e, spacing k = 2 ^ e := ⟨_, rfl⟩
  rw [he]
  rcases Nat.eq_zero_or_pos r with rfl | hpos
  · rw [Nat.zero_mul, Nat.zero_div]
    exact Even.zero
  · rcases Nat.eq_or_lt_of_le hr with rfl | hlt
    · -- the next power of two has a significand of its own
      have hlog : (2 ^ 53 * 2 ^ e).log2 = 53 + e := by
        rw [← Nat.pow_add]
        exact Nat.log2_two_pow
      have hspacing : spacing (2 ^ 53 * 2 ^ e) = 2 * 2 ^ e := by
        unfold spacing
        rw [hlog, show 53 + e - 52 = 1 + e by omega]
        exact Nat.pow_add 2 1 e
      have hsplit : 2 ^ 53 * 2 ^ e = 2 ^ 52 * (2 * 2 ^ e) := by
        rw [← Nat.mul_assoc, ← Nat.pow_succ]
      rw [hspacing, hsplit, Nat.mul_div_cancel _ (by positivity)]
      exact ⟨2 ^ 51, by norm_num⟩
    · have hne : r * 2 ^ e ≠ 0 := (Nat.mul_pos hpos (Nat.two_pow_pos e)).ne'
      have hbound : r * 2 ^ e < 2 ^ (53 + e) := by
        rw [Nat.pow_add]
        exact Nat.mul_lt_mul_of_pos_right hlt (Nat.two_pow_pos e)
      have hlog : (r * 2 ^ e).log2 < 53 + e := (Nat.log2_lt hne).2 hbound
      have hdvd : spacing (r * 2 ^ e) ∣ 2 ^ e := Nat.pow_dvd_pow 2 (by omega)
      rw [Nat.mul_div_assoc _ hdvd]
      exact (Nat.even_iff.2 heven).mul_right _

/-- An odd point of the grid has an odd significand. -/
theorem not_even_significand {c k : ℕ} (hc : k.log2 < 52 ∨ 2 ^ 52 ≤ c)
    (hfits : Representable (c * spacing k)) (hodd : c % 2 = 1) :
    ¬Even (c * spacing k / spacing (c * spacing k)) := by
  obtain ⟨e, he⟩ : ∃ e, spacing k = 2 ^ e := ⟨_, rfl⟩
  obtain ⟨f, hf⟩ : ∃ f, spacing (c * spacing k) = 2 ^ f := ⟨_, rfl⟩
  have hdvd : 2 ^ f ∣ c * 2 ^ e := by
    rw [← hf, ← he]
    exact hfits.2
  have hle : e ≤ f := by
    rw [← Nat.pow_dvd_pow_iff_le_right (by decide : 1 < 2), ← he, ← hf]
    rcases hc with hlow | hhigh
    · rw [spacing_eq_one hlow]
      exact Nat.one_dvd _
    · have hbound : 2 ^ (52 + (k.log2 - 52)) ≤ c * spacing k := by
        rw [Nat.pow_add]
        exact Nat.mul_le_mul_right _ hhigh
      have hne : c * spacing k ≠ 0 := Nat.ne_of_gt (Nat.lt_of_lt_of_le (Nat.two_pow_pos _) hbound)
      have hlog := (Nat.le_log2 hne).2 hbound
      exact Nat.pow_dvd_pow 2 (by omega)
  obtain ⟨j, rfl⟩ := Nat.exists_eq_add_of_le hle
  have hj : j = 0 := by
    rw [Nat.pow_add, Nat.mul_comm] at hdvd
    have hcdvd : 2 ^ j ∣ c := Nat.dvd_of_mul_dvd_mul_right (Nat.two_pow_pos e) hdvd
    cases j with
    | zero => rfl
    | succ j =>
      have htwo : 2 ∣ c := Nat.dvd_trans (Nat.dvd_mul_left 2 (2 ^ j)) hcdvd
      omega
  rw [hf, he, hj, Nat.add_zero, Nat.mul_div_cancel _ (Nat.two_pow_pos e), Nat.not_even_iff]
  exact hodd

section Quotient

variable {n d : ℕ}

/-- The grid point that a quotient is rounded to is half a spacing away at most. -/
theorem abs_sub_roundUnits_le (hd : 0 < d) :
    |(n / d : ℚ) - roundUnits n d| ≤ spacing (n / d) / 2 := by
  have hdq : (0 : ℚ) < d := by exact_mod_cast hd
  obtain ⟨hlow, hhigh⟩ := roundUnits_spacing_error (n := n) hd
  have hlowq : 2 * (n : ℚ) ≤ 2 * (d * roundUnits n d) + d * spacing (n / d) := by exact_mod_cast hlow
  have hhighq : 2 * ((d : ℚ) * roundUnits n d) ≤ 2 * n + d * spacing (n / d) := by
    exact_mod_cast hhigh
  have hn : (n : ℚ) = d * (n / d) := (mul_div_cancel₀ _ hdq.ne').symm
  rw [hn] at hlowq hhighq
  rw [abs_le]
  constructor
  · refine le_of_mul_le_mul_left ?_ hdq
    linarith
  · refine le_of_mul_le_mul_left ?_ hdq
    linarith

/-- Every other grid point is half a spacing away at least. -/
theorem le_abs_sub_grid (hd : 0 < d) {c : ℕ} (hc : c ≠ roundQuotient n (d * spacing (n / d))) :
    (spacing (n / d) / 2 : ℚ) ≤ |(n / d : ℚ) - c * spacing (n / d)| := by
  have hround := abs_le.1 (abs_sub_roundUnits_le (n := n) hd)
  have hspacing : (0 : ℚ) ≤ spacing (n / d) := Nat.cast_nonneg _
  unfold roundUnits at hround
  rw [Nat.cast_mul] at hround
  rw [le_abs]
  rcases Nat.lt_or_gt_of_ne hc with hlt | hgt
  · left
    have hstep : (c + 1 : ℚ) * spacing (n / d) ≤
        roundQuotient n (d * spacing (n / d)) * spacing (n / d) :=
      mul_le_mul_of_nonneg_right (by exact_mod_cast hlt) hspacing
    linarith [hround.1]
  · right
    have hstep : (roundQuotient n (d * spacing (n / d)) + 1 : ℚ) * spacing (n / d) ≤
        c * spacing (n / d) := mul_le_mul_of_nonneg_right (by exact_mod_cast hgt) hspacing
    linarith [hround.2]

/-- No unit count that a double can hold is nearer to a quotient than the one that it is rounded
to, and one as near is on the grid. -/
theorem abs_sub_roundUnits_le_of_representable (hd : 0 < d) {v : ℕ} (hv : Representable v) :
    |(n / d : ℚ) - roundUnits n d| ≤ |(n / d : ℚ) - v| ∧
      (|(n / d : ℚ) - v| = |(n / d : ℚ) - roundUnits n d| → spacing (n / d) ∣ v) := by
  have hgrid : ∀ b : ℕ, spacing (n / d) ∣ b →
      |(n / d : ℚ) - roundUnits n d| ≤ |(n / d : ℚ) - b| := by
    rintro b ⟨c, rfl⟩
    by_cases hc : c = roundQuotient n (d * spacing (n / d))
    · rw [hc, Nat.mul_comm]
      exact le_refl _
    · rw [Nat.mul_comm, Nat.cast_mul]
      exact (abs_sub_roundUnits_le hd).trans (le_abs_sub_grid hd hc)
  rcases on_grid hv (n / d) with hdvd | ⟨b, hdvd, hlt, hle⟩
  · exact ⟨hgrid v hdvd, fun _ => hdvd⟩
  · -- the grid point between is nearer
    have hvb : (v : ℚ) < b := by exact_mod_cast hlt
    have hbq : (b : ℚ) ≤ n / d := le_trans (by exact_mod_cast hle) Nat.cast_div_le
    have hnearer : |(n / d : ℚ) - b| < |(n / d : ℚ) - v| := by
      rw [abs_of_nonneg (by linarith), abs_of_nonneg (by linarith)]
      linarith
    have hlt := (hgrid b hdvd).trans_lt hnearer
    exact ⟨hlt.le, fun heq => absurd heq hlt.ne'⟩

/-- A quotient halfway between the grid point that it is rounded to and another one is rounded to
the even one. -/
theorem roundQuotient_even_of_halfway (hd : 0 < d)
    (h : |(n / d : ℚ) - roundUnits n d| = spacing (n / d) / 2) :
    roundQuotient n (d * spacing (n / d)) % 2 = 0 := by
  have hdq : (0 : ℚ) < d := by exact_mod_cast hd
  have hspacing : (0 : ℚ) < spacing (n / d) := by exact_mod_cast spacing_pos _
  have hn : (n : ℚ) = d * (n / d) := (mul_div_cancel₀ _ hdq.ne').symm
  refine roundQuotient_even (Nat.mul_pos hd (spacing_pos _)) ?_
  unfold roundUnits at h
  rw [Nat.cast_mul] at h
  generalize roundQuotient n (d * spacing (n / d)) = r at h ⊢
  rcases (abs_eq (by linarith)).1 h with h | h
  · left
    have heq : 2 * (n : ℚ) = 2 * (d * spacing (n / d) * r) + d * spacing (n / d) := by
      rw [hn, eq_add_of_sub_eq h]
      ring
    exact_mod_cast heq
  · right
    have heq : 2 * (n : ℚ) + d * spacing (n / d) = 2 * (d * spacing (n / d) * r) := by
      rw [hn, eq_add_of_sub_eq h]
      ring
    exact_mod_cast heq

/-- A grid point half a spacing away is no lower than the whole part of the quotient. -/
theorem div_le_of_halfway (hd : 0 < d) {c : ℕ}
    (h : |(n / d : ℚ) - c * spacing (n / d)| = spacing (n / d) / 2) :
    n / (d * spacing (n / d)) ≤ c := by
  have hdq : (0 : ℚ) < d := by exact_mod_cast hd
  have hspacing : (0 : ℚ) < spacing (n / d) := by exact_mod_cast spacing_pos _
  have hbelow : (n / d : ℚ) < (c + 1) * spacing (n / d) := by
    have hhigh := le_of_abs_le h.le
    linarith
  rw [div_lt_iff₀ hdq] at hbelow
  have hnat : n < (c + 1) * spacing (n / d) * d := by exact_mod_cast hbelow
  refine Nat.le_of_lt_succ ((Nat.div_lt_iff_lt_mul (Nat.mul_pos hd (spacing_pos _))).2 ?_)
  rw [Nat.mul_comm d, ← Nat.mul_assoc]
  exact hnat

/-- Two grid points that are both half a spacing away from a fraction are neighbours. -/
theorem neighbours_of_halfway {q : ℚ} {s c r : ℕ} (hs : 0 < s) (hne : c ≠ r)
    (hc : |q - c * s| = s / 2) (hr : |q - r * s| = s / 2) : c = r + 1 ∨ c + 1 = r := by
  have hpos : (0 : ℚ) < s := by exact_mod_cast hs
  have hhalf : (0 : ℚ) ≤ s / 2 := by linarith
  have hcancel : ∀ a b : ℕ, (a : ℚ) * s = b * s → a = b := by
    intro a b hab
    exact_mod_cast mul_right_cancel₀ hpos.ne' hab
  rcases (abs_eq hhalf).1 hr with h | h
  · rcases (abs_eq hhalf).1 hc with h' | h'
    · exact absurd (hcancel c r (by linarith)) hne
    · refine .inl (hcancel c (r + 1) ?_)
      push_cast
      linarith
  · rcases (abs_eq hhalf).1 hc with h' | h'
    · refine .inr (hcancel (c + 1) r ?_)
      push_cast
      linarith
    · exact absurd (hcancel c r (by linarith)) hne

/-- If another grid point is as near, the quotient is halfway between the two, and the even one
was taken. -/
theorem tie_of_grid (hd : 0 < d) {c : ℕ} (hc : c ≠ roundQuotient n (d * spacing (n / d)))
    (htie : |(n / d : ℚ) - c * spacing (n / d)| = |(n / d : ℚ) - roundUnits n d|) :
    roundQuotient n (d * spacing (n / d)) % 2 = 0 ∧ n / (d * spacing (n / d)) ≤ c ∧
      (c = roundQuotient n (d * spacing (n / d)) + 1 ∨
        c + 1 = roundQuotient n (d * spacing (n / d))) := by
  have hhalf : |(n / d : ℚ) - roundUnits n d| = spacing (n / d) / 2 :=
    le_antisymm (abs_sub_roundUnits_le hd) (htie ▸ le_abs_sub_grid hd hc)
  rw [hhalf] at htie
  refine ⟨roundQuotient_even_of_halfway hd hhalf, div_le_of_halfway hd htie, ?_⟩
  unfold roundUnits at hhalf
  rw [Nat.cast_mul] at hhalf
  exact neighbours_of_halfway (spacing_pos _) hc htie hhalf

/-! ## Rounding finds the nearest double -/

theorem isNearest_roundUnits (hd : 0 < d) (hlt : roundUnits n d < unitsLimit) :
    IsNearest (n / d) (roundUnits n d) := by
  refine ⟨representable_roundUnits hlt,
    fun v hv => (abs_sub_roundUnits_le_of_representable hd hv).1, ?_⟩
  intro v hv hne htie
  obtain ⟨c, rfl⟩ := (abs_sub_roundUnits_le_of_representable hd hv).2 htie
  rw [Nat.mul_comm] at hne htie
  have hc : c ≠ roundQuotient n (d * spacing (n / d)) := by
    rintro rfl
    exact hne rfl
  rw [Nat.cast_mul] at htie
  exact even_significand (n / d) (roundQuotient_le_two_pow n d) (tie_of_grid hd hc htie).1

/-- There is no other nearest double. -/
theorem IsNearest.eq_roundUnits (hd : 0 < d) (hlt : roundUnits n d < unitsLimit) {v : ℕ}
    (h : IsNearest (n / d) v) : v = roundUnits n d := by
  by_contra hne
  have hfits := representable_roundUnits hlt
  have htie : |(n / d : ℚ) - v| = |(n / d : ℚ) - roundUnits n d| :=
    le_antisymm (h.nearest _ hfits) (abs_sub_roundUnits_le_of_representable hd h.fits).1
  obtain ⟨c, rfl⟩ := (abs_sub_roundUnits_le_of_representable hd h.fits).2 htie
  have heven := h.even _ hfits (Ne.symm hne) htie.symm
  have hrepresentable := h.fits
  rw [Nat.mul_comm] at hne htie heven hrepresentable
  have hc : c ≠ roundQuotient n (d * spacing (n / d)) := by
    rintro rfl
    exact hne rfl
  rw [Nat.cast_mul] at htie
  obtain ⟨hround, hwhole, hnext⟩ := tie_of_grid hd hc htie
  refine not_even_significand ?_ hrepresentable (by omega) heven
  -- the neighbours of a quotient of 53 digits have 53 digits
  rcases Nat.lt_or_ge (n / d).log2 52 with hlow | hhigh
  · exact .inl hlow
  · right
    rw [← Nat.div_div_eq_div_mul] at hwhole
    exact (two_pow_le_div_spacing hhigh).trans hwhole

end Quotient

/-! ## The side of a double -/

/-- Rounding keeps to the side of a double. -/
theorem roundUnits_le_of_le {m v : ℕ} (hv : Representable v) (h : m ≤ v) :
    roundUnits m 1 ≤ v ∧ 2 * m ≤ roundUnits m 1 + v := by
  have hnear := (abs_sub_roundUnits_le_of_representable (n := m) Nat.one_pos hv).1
  have hmv : (m : ℚ) ≤ v := by exact_mod_cast h
  rw [Nat.cast_one, div_one, abs_sub_comm _ (v : ℚ), abs_of_nonneg (sub_nonneg.2 hmv), abs_le] at hnear
  constructor
  · have hle : (roundUnits m 1 : ℚ) ≤ v := by linarith [hnear.1]
    exact_mod_cast hle
  · have hle : (2 * m : ℚ) ≤ roundUnits m 1 + v := by linarith [hnear.2]
    exact_mod_cast hle

theorem le_roundUnits_of_le {m v : ℕ} (hv : Representable v) (h : v ≤ m) :
    v ≤ roundUnits m 1 ∧ roundUnits m 1 + v ≤ 2 * m := by
  have hnear := (abs_sub_roundUnits_le_of_representable (n := m) Nat.one_pos hv).1
  have hvm : (v : ℚ) ≤ m := by exact_mod_cast h
  rw [Nat.cast_one, div_one, abs_of_nonneg (sub_nonneg.2 hvm), abs_le] at hnear
  constructor
  · have hle : (v : ℚ) ≤ roundUnits m 1 := by linarith [hnear.2]
    exact_mod_cast hle
  · have hle : (roundUnits m 1 + v : ℚ) ≤ 2 * m := by linarith [hnear.1]
    exact_mod_cast hle

/-! ## Fractions that have a nearest double -/

theorem unitsPerOne_eq : unitsPerOne = 2 ^ 1074 := by decide +kernel

theorem overflowBound_eq_mul : overflowBound = 2 * unitsPerOne * (2 ^ 1024 - 2 ^ 970) := by
  decide +kernel

/-- A quotient has a finite double if it is below the middle between the largest double and the
next power of two. -/
theorem isFinite_ofRatio_iff {negative : Bool} {n d : ℕ} (hd : 0 < d) :
    (ofRatio negative n d).isFinite = true ↔ n < (2 ^ 1024 - 2 ^ 970) * d := by
  unfold ofRatio
  rw [isFinite_ofUnitRatio hd, overflowBound_eq_mul]
  generalize 2 ^ 1024 - 2 ^ 970 = bound
  have hleft : 2 * (n * unitsPerOne) = 2 * unitsPerOne * n := by ring
  have hright : d * (2 * unitsPerOne * bound) = 2 * unitsPerOne * (bound * d) := by ring
  have hpos := unitsPerOne_pos
  rw [hleft, hright]
  exact Nat.mul_lt_mul_left (by omega)

/-- The double with a given sign that is nearest to a fraction; from halfway beyond the largest
double on there is none. -/
def Rounds (negative : Bool) (q : ℚ) (x : Binary64) : Prop :=
  q < 2 ^ 1024 - 2 ^ 970 ∧
    ∃ units fits, x = finite negative units fits ∧ IsNearest (q * 2 ^ 1074) units

/-- Rounding gives the nearest double wherever there is one. -/
theorem rounds_iff {negative : Bool} {n d : ℕ} (hd : 0 < d) {x : Binary64} :
    Rounds negative (n / d) x ↔ ofRatio negative n d = x ∧ x.isFinite = true := by
  have hdq : (0 : ℚ) < d := by exact_mod_cast hd
  have hbound : (n / d : ℚ) < 2 ^ 1024 - 2 ^ 970 ↔ (ofRatio negative n d).isFinite = true := by
    have hcast : ∀ {a b : ℕ}, b ≤ a → ((2 ^ a - 2 ^ b : ℕ) : ℚ) = 2 ^ a - 2 ^ b := by
      intro a b hle
      rw [Nat.cast_sub (Nat.pow_le_pow_right (by decide) hle), Nat.cast_pow, Nat.cast_pow,
        Nat.cast_ofNat]
    rw [isFinite_ofRatio_iff hd, div_lt_iff₀ hdq, ← hcast (show 970 ≤ 1024 by decide),
      ← Nat.cast_mul, Nat.cast_lt]
  have hunits : (n / d : ℚ) * 2 ^ 1074 = (n * unitsPerOne : ℕ) / d := by
    rw [Nat.cast_mul, unitsPerOne_eq, Nat.cast_pow, Nat.cast_ofNat, div_mul_eq_mul_div]
  unfold Rounds
  rw [hbound, hunits]
  unfold ofRatio ofUnitRatio
  by_cases hlt : roundUnits (n * unitsPerOne) d < unitsLimit
  · rw [dif_pos hlt]
    constructor
    · rintro ⟨-, u, fits, rfl, hnearest⟩
      obtain rfl := hnearest.eq_roundUnits hd hlt
      exact ⟨rfl, rfl⟩
    · rintro ⟨rfl, -⟩
      exact ⟨rfl, _, _, rfl, isNearest_roundUnits hd hlt⟩
  · rw [dif_neg hlt]
    refine iff_of_false (fun h => Bool.false_ne_true h.1) ?_
    rintro ⟨rfl, hfinite⟩
    exact Bool.false_ne_true hfinite

end Binary64

end ImageSizing
