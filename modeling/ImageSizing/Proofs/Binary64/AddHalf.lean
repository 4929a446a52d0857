import ImageSizing.Proofs.Binary64.Value

/-!
# Adding one half

Whole pixels are found by adding one half to a double and cutting off the rest.  The sum is
rounded like every other one, and that can lead over the next whole number.  In counts of
units, with `below` the distance of the doubles just below one half, and for counts that a
double can hold:

    u + below = half           : the sum is rounded to one       (roundUnits_add_half_of_lt)
    half ≤ u < 2⁵²             : the whole part is the right one  (roundUnits_add_half_of_le)
    u = k, 2⁵² ≤ k < 2⁵³       : a tie, so an odd k goes up       (roundUnits_add_half_of_whole)
    2⁵³ ≤ u                    : one half is lost in the rounding (roundUnits_add_half_of_large)

Taking one half away, as for negative numbers, goes wrong only where the sum is a tie.
-/

namespace ImageSizing.Binary64

/-! ## Significands -/

/-- What a double can hold is a significand of 53 digits times a power of two. -/
theorem exists_significand {u : ℕ} (h : Representable u) :
    ∃ c, u = c * 2 ^ (u.log2 - 52) ∧ c < 2 ^ 53 :=
  ⟨u / spacing u, (Nat.div_mul_cancel h.2).symm, div_spacing_lt u⟩

/-- Below a power of two that is large enough there is room for one more. -/
theorem add_two_pow_le_of_representable {u e : ℕ} (h : Representable u) (hlt : u < 2 ^ (e + 53)) :
    u + 2 ^ e ≤ 2 ^ (e + 53) := by
  have hpow : (2 : ℕ) ^ (e + 53) = 2 ^ 53 * 2 ^ e := by rw [Nat.pow_add, Nat.mul_comm]
  have hpow' : (2 : ℕ) ^ (e + 52) = 2 ^ 52 * 2 ^ e := by rw [Nat.pow_add, Nat.mul_comm]
  have hpos : 0 < 2 ^ e := Nat.two_pow_pos e
  rcases Nat.lt_or_ge u (2 ^ (e + 52)) with hlow | hlow
  · omega
  · obtain ⟨c, rfl⟩ := dvd_of_representable h hlow
    rw [hpow, Nat.mul_comm (2 ^ e)] at hlt
    have hc : c + 1 ≤ 2 ^ 53 := Nat.lt_of_mul_lt_mul_right hlt
    have hmul := Nat.mul_le_mul_right (2 ^ e) hc
    rw [Nat.add_mul, Nat.one_mul] at hmul
    rw [hpow, Nat.mul_comm (2 ^ e)]
    exact hmul

/-- Between two doubles of one binade a tie goes to the even significand. -/
theorem roundUnits_of_tie {c e : ℕ} (hlow : 2 ^ 52 ≤ c) (hhigh : c < 2 ^ 53) :
    roundUnits (c * 2 ^ (e + 1) + 2 ^ e) 1 = (c + c % 2) * 2 ^ (e + 1) := by
  have hhalf : (2 : ℕ) ^ (e + 1) = 2 * 2 ^ e := Nat.pow_succ'
  have hpos : 0 < 2 ^ e := Nat.two_pow_pos e
  have hlarge : 2 ^ (e + 1 + 52) ≤ c * 2 ^ (e + 1) + 2 ^ e := by
    have hmul := Nat.mul_le_mul_right (2 ^ (e + 1)) hlow
    rw [Nat.pow_add 2 (e + 1), Nat.mul_comm (2 ^ (e + 1))]
    omega
  have hsmall : c * 2 ^ (e + 1) + 2 ^ e < 2 ^ (e + 1 + 53) := by
    have hmul := Nat.mul_le_mul_right (2 ^ (e + 1)) hhigh
    rw [Nat.succ_mul] at hmul
    rw [Nat.pow_add 2 (e + 1), Nat.mul_comm (2 ^ (e + 1))]
    omega
  have hne : c * 2 ^ (e + 1) + 2 ^ e ≠ 0 := by omega
  have hlog : (c * 2 ^ (e + 1) + 2 ^ e).log2 - 52 = e + 1 := by
    have hle := (Nat.le_log2 hne).2 hlarge
    have hlt := (Nat.log2_lt hne).2 hsmall
    omega
  have hspacing : spacing (c * 2 ^ (e + 1) + 2 ^ e) = 2 ^ (e + 1) := by
    unfold spacing
    rw [hlog]
    rfl
  have hquot : (c * 2 ^ (e + 1) + 2 ^ e) / 2 ^ (e + 1) = c := by
    rw [Nat.mul_comm, Nat.mul_add_div (by omega), Nat.div_eq_of_lt (by omega), Nat.add_zero]
  have hrem : (c * 2 ^ (e + 1) + 2 ^ e) % 2 ^ (e + 1) = 2 ^ e := by
    rw [Nat.mul_comm, Nat.mul_add_mod, Nat.mod_eq_of_lt (by omega)]
  unfold roundUnits roundQuotient
  rw [Nat.div_one, Nat.one_mul, hspacing, hquot, hrem, if_neg (by omega), if_neg (by omega)]

/-! ## One half -/

/-- The distance between neighbouring doubles just below one half. -/
@[irreducible] def belowHalf : ℕ := 2 ^ 1020

theorem exists_belowHalf : ∃ e, belowHalf = 2 ^ e ∧ unitsPerHalf = 2 ^ (e + 53) ∧
    unitsPerOne = 2 ^ (e + 54) ∧ 2 ^ (e + 120) ≤ unitsLimit :=
  ⟨1020, by decide +kernel⟩

theorem belowHalf_pos : 0 < belowHalf := by
  obtain ⟨e, hbelow, -⟩ := exists_belowHalf
  rw [hbelow]
  exact Nat.two_pow_pos e

theorem belowHalf_lt : belowHalf < unitsPerHalf := by
  obtain ⟨e, hbelow, hhalf, -⟩ := exists_belowHalf
  rw [hbelow, hhalf]
  exact Nat.pow_lt_pow_right (by decide) (by omega)

theorem belowHalf_mul : belowHalf * 2 ^ 54 = unitsPerOne := by
  obtain ⟨e, hbelow, -, hone, -⟩ := exists_belowHalf
  rw [hbelow, hone, ← Nat.pow_add]

section Sum

variable {u : ℕ}

/-- Below one half the sum stays below one, but for the last double. -/
theorem roundUnits_add_half_of_lt (fits : Representable u) (h : u < unitsPerHalf) :
    u + belowHalf ≤ unitsPerHalf ∧ roundUnits (u + unitsPerHalf) 1 / unitsPerOne =
      if u + belowHalf = unitsPerHalf then 1 else 0 := by
  obtain ⟨e, hbelow, hhalf, hone, -⟩ := exists_belowHalf
  have hpos := belowHalf_pos
  have hhalf' : unitsPerHalf = belowHalf * 2 ^ 53 := by rw [hhalf, hbelow, Nat.pow_add]
  have hroom : u + belowHalf ≤ unitsPerHalf := by
    rw [hhalf] at h ⊢
    rw [hbelow]
    exact add_two_pow_le_of_representable fits h
  have hupper : roundUnits (u + unitsPerHalf) 1 ≤ 1 * unitsPerOne := by
    refine (roundUnits_le_of_le (representable_mul_unitsPerOne (by decide)) ?_).1
    rw [← two_mul_unitsPerHalf]
    omega
  have hiff : roundUnits (u + unitsPerHalf) 1 < unitsPerOne ↔
      2 * (u + unitsPerHalf) < belowHalf * 2 * (2 ^ 54 - 1) := by
    have hexponent : e + 54 = e + 1 + 53 := by omega
    have hmiddle : 1 * doubledMiddle (e + 1) = belowHalf * 2 * (2 ^ 54 - 1) := by
      rw [Nat.one_mul, hbelow]
      rfl
    rw [hone, hexponent, ← hmiddle]
    exact roundUnits_lt_two_pow_iff Nat.one_pos (e + 1)
  refine ⟨hroom, ?_⟩
  by_cases hlast : u + belowHalf = unitsPerHalf
  · have hreached : ¬roundUnits (u + unitsPerHalf) 1 < unitsPerOne := by
      rw [hiff]
      omega
    have hequal : roundUnits (u + unitsPerHalf) 1 = unitsPerOne := by omega
    rw [if_pos hlast, hequal, Nat.div_self unitsPerOne_pos]
  · rw [if_neg hlast]
    refine Nat.div_eq_of_lt (hiff.2 ?_)
    omega

/-- Up to 2⁵² a double is a significand times a power of two that divides one half. -/
theorem exists_significand_half (fits : Representable u) (hhigh : u < 2 ^ 52 * unitsPerOne) :
    ∃ c f j, u = c * 2 ^ f ∧ c < 2 ^ 53 ∧ unitsPerHalf = 2 ^ j * 2 ^ f ∧
      unitsPerOne = 2 ^ (j + 1 + f) ∧ 2 ^ (f + 60) ≤ unitsLimit := by
  obtain ⟨e, -, hhalf, hone, hlimit⟩ := exists_belowHalf
  obtain ⟨c, hu, hc⟩ := exists_significand fits
  have hf : u.log2 - 52 ≤ e + 53 := by
    by_cases hzero : u = 0
    · subst hzero
      simp
    · have hlt : u < 2 ^ (e + 106) := by
        rw [hone, ← Nat.pow_add] at hhigh
        exact Nat.lt_of_lt_of_eq hhigh (congrArg (2 ^ ·) (by omega))
      have := (Nat.log2_lt hzero).2 hlt
      omega
  generalize u.log2 - 52 = f at hu hf
  obtain ⟨j, hj⟩ := Nat.exists_eq_add_of_le' hf
  refine ⟨c, f, j, hu, hc, ?_, ?_, ?_⟩
  · rw [hhalf, hj, Nat.pow_add]
  · rw [hone]
    congr 1
    omega
  · exact Nat.le_trans (Nat.pow_le_pow_right (by decide) (by omega)) hlimit

/-- A number between a whole number and a double before the next one keeps its whole part. -/
theorem roundUnits_div_of_between {k m v : ℕ} (hwhole : Representable (k * unitsPerOne))
    (hdouble : Representable v) (hlow : k * unitsPerOne ≤ m) (hhigh : m ≤ v)
    (hnext : v < (k + 1) * unitsPerOne) :
    roundUnits m 1 / unitsPerOne = m / unitsPerOne := by
  have hge := (le_roundUnits_of_le hwhole hlow).1
  have hle := (roundUnits_le_of_le hdouble hhigh).1
  rw [Nat.div_eq_of_lt_le hge (Nat.lt_of_le_of_lt hle hnext),
    Nat.div_eq_of_lt_le hlow (Nat.lt_of_le_of_lt hhigh hnext)]

/-- From one half up to 2⁵² the sum is exact, or it is rounded at the beginning of a binade and
keeps its whole part. -/
theorem roundUnits_add_half_of_le (fits : Representable u) (hlow : unitsPerHalf ≤ u)
    (hhigh : u < 2 ^ 52 * unitsPerOne) :
    roundUnits (u + unitsPerHalf) 1 / unitsPerOne = (u + unitsPerHalf) / unitsPerOne := by
  obtain ⟨c, f, j, rfl, hc, hhalf, hone, hlimit⟩ := exists_significand_half fits hhigh
  have hsum : c * 2 ^ f + unitsPerHalf = (c + 2 ^ j) * 2 ^ f := by rw [hhalf, Nat.add_mul]
  rcases Nat.lt_or_ge (2 ^ 53) (c + 2 ^ j) with hcarry | hfits
  · -- the sum is just behind a power of two, at which the grid gets coarser
    have hj : j ≤ 52 := by
      have hle : 2 ^ j ≤ c := by
        rw [hhalf] at hlow
        exact Nat.le_of_mul_le_mul_right hlow (Nat.two_pow_pos f)
      have hlt : 2 ^ j < 2 ^ 53 := Nat.lt_of_le_of_lt hle hc
      exact Nat.le_of_lt_succ ((Nat.pow_lt_pow_iff_right (by decide)).1 hlt)
    cases j with
    | zero => omega
    | succ j =>
      have hwhole : 2 ^ 53 * 2 ^ f = 2 ^ (51 - j) * unitsPerOne := by
        rw [hone, ← Nat.pow_add, ← Nat.pow_add]
        congr 1
        omega
      have hnext : 2 ^ 53 * 2 ^ f + unitsPerHalf = (2 ^ 52 + 2 ^ j) * 2 ^ (f + 1) := by
        rw [hhalf, Nat.pow_succ' (n := f), Nat.pow_succ' (n := j)]
        ring
      have hbelow : Representable (2 ^ 53 * 2 ^ f) := representable_mul_two_pow (Nat.le_refl _) (by omega) hlimit
      have habove : Representable (2 ^ 53 * 2 ^ f + unitsPerHalf) := by
        have hpow : 2 ^ j ≤ 2 ^ 52 := Nat.pow_le_pow_right (by decide) (by omega)
        rw [hnext]
        exact representable_mul_two_pow (by omega) (by omega) hlimit
      have hlower := Nat.mul_le_mul_right (2 ^ f) hcarry.le
      have hupper := Nat.add_le_add_right (Nat.mul_le_mul_right (2 ^ f) hc.le) unitsPerHalf
      have hshort : unitsPerHalf < unitsPerOne := by
        have htwo := two_mul_unitsPerHalf
        have hpos := unitsPerOne_pos
        omega
      rw [← hsum, hwhole] at hlower
      rw [hwhole] at hbelow habove hupper
      refine roundUnits_div_of_between hbelow habove hlower hupper ?_
      rw [Nat.succ_mul]
      exact Nat.add_lt_add_left hshort _
  · rw [hsum, roundUnits_of_representable (representable_mul_two_pow hfits (by omega) hlimit)]

/-- From 2⁵² up to 2⁵³ the sum is in the middle of two whole numbers. -/
theorem roundUnits_add_half_of_whole {k : ℕ} (hlow : 2 ^ 52 ≤ k) (hhigh : k < 2 ^ 53) :
    roundUnits (k * unitsPerOne + unitsPerHalf) 1 = (k + k % 2) * unitsPerOne := by
  obtain ⟨e, -, hhalf, hone, -⟩ := exists_belowHalf
  rw [hhalf, hone]
  exact roundUnits_of_tie hlow hhigh

theorem roundUnits_lt_unitsLimit_of_le {m : ℕ} (fits : Representable u) (h : m ≤ u + unitsPerHalf) :
    roundUnits m 1 < unitsLimit := by
  have hu := two_mul_units_add_le fits
  have hsmall := two_mul_unitsPerHalf_lt
  rw [roundUnits_lt_unitsLimit_iff Nat.one_pos]
  omega

/-- From 2⁵³ on one half makes no difference. -/
theorem roundUnits_add_half_of_large (fits : Representable u) (h : 2 ^ 53 * unitsPerOne ≤ u) :
    roundUnits (u + unitsPerHalf) 1 = u := by
  have hpos := unitsPerOne_pos
  have htwo := two_mul_unitsPerHalf
  obtain ⟨hle, hnear⟩ := le_roundUnits_of_le (m := u + unitsPerHalf) fits (Nat.le_add_right _ _)
  have hlimit := roundUnits_lt_unitsLimit_of_le fits (Nat.le_refl _)
  obtain ⟨b, hb⟩ := dvd_of_large (e := 1) (representable_roundUnits hlimit) (Nat.le_trans h hle)
  obtain ⟨a, rfl⟩ := dvd_of_large (e := 1) fits h
  rw [hb] at hle hnear ⊢
  rcases Nat.eq_or_lt_of_le hle with heq | hlt
  · exact heq.symm
  · have hapart := mul_add_le_of_mul_lt hlt
    omega

end Sum

section Difference

variable {u : ℕ}

/-- Up to 2⁵² the difference is exact. -/
theorem representable_sub_half (fits : Representable u) (hhigh : u ≤ 2 ^ 52 * unitsPerOne) :
    Representable (u - unitsPerHalf) := by
  rcases Nat.eq_or_lt_of_le hhigh with rfl | hlt
  · obtain ⟨e, hhalf, -, hlimit⟩ := exists_unitsPerHalf
    have hdiff : 2 ^ 52 * unitsPerOne - unitsPerHalf = (2 ^ 53 - 1) * 2 ^ (e + 53) := by
      rw [← two_mul_unitsPerHalf, hhalf]
      omega
    rw [hdiff]
    exact representable_mul_two_pow (by decide) (by omega) hlimit
  · obtain ⟨c, f, j, rfl, hc, hhalf, -, hlimit⟩ := exists_significand_half fits hlt
    rw [hhalf, ← Nat.sub_mul]
    exact representable_mul_two_pow (Nat.le_trans (Nat.sub_le _ _) hc.le) (by omega) hlimit

/-- From 2⁵² up to 2⁵³ the difference is in the middle of two whole numbers. -/
theorem roundUnits_sub_half_of_whole {k : ℕ} (hlow : 2 ^ 52 < k) (hhigh : k ≤ 2 ^ 53) :
    roundUnits (k * unitsPerOne - unitsPerHalf) 1 = (k - k % 2) * unitsPerOne := by
  obtain ⟨m, rfl⟩ : ∃ m, k = m + 1 := ⟨k - 1, by omega⟩
  have hdiff : (m + 1) * unitsPerOne - unitsPerHalf = m * unitsPerOne + unitsPerHalf := by
    rw [Nat.succ_mul, ← two_mul_unitsPerHalf]
    omega
  rw [hdiff, roundUnits_add_half_of_whole (by omega) (by omega)]
  congr 1
  omega

/-- Beyond 2⁵³ one half makes no difference. -/
theorem roundUnits_sub_half_of_large (fits : Representable u) (h : 2 ^ 53 * unitsPerOne < u) :
    roundUnits (u - unitsPerHalf) 1 = u := by
  have hpos := unitsPerOne_pos
  have htwo := two_mul_unitsPerHalf
  obtain ⟨hle, hnear⟩ := roundUnits_le_of_le (m := u - unitsPerHalf) fits (Nat.sub_le _ _)
  have hfits := representable_roundUnits (Nat.lt_of_le_of_lt hle fits.1)
  obtain ⟨a, rfl⟩ := dvd_of_large (e := 1) fits h.le
  generalize hr : roundUnits (2 ^ 1 * unitsPerOne * a - unitsPerHalf) 1 = r at hle hnear hfits ⊢
  have hsplit : 2 ^ 53 * unitsPerOne = 2 ^ 1 * unitsPerOne * 2 ^ 52 := by ring
  have hroom : 2 ^ 53 * unitsPerOne + 2 ^ 1 * unitsPerOne ≤ 2 ^ 1 * unitsPerOne * a := by
    rw [hsplit] at h ⊢
    exact mul_add_le_of_mul_lt h
  have hlarge : 2 ^ 53 * unitsPerOne ≤ r := by omega
  obtain ⟨b, rfl⟩ := dvd_of_large (e := 1) hfits hlarge
  rcases Nat.eq_or_lt_of_le hle with heq | hlt
  · exact heq
  · have hapart := mul_add_le_of_mul_lt hlt
    omega

end Difference

/-! ## The whole part of the sum -/

/-- A whole number of 53 digits that is odd. -/
def OddWhole (u : ℕ) : Prop :=
  ∃ k, u = k * unitsPerOne ∧ k % 2 = 1 ∧ 2 ^ 52 < k ∧ k < 2 ^ 53

theorem OddWhole.bounds {u : ℕ} (h : OddWhole u) :
    2 ^ 52 * unitsPerOne < u ∧ u < 2 ^ 53 * unitsPerOne := by
  obtain ⟨k, rfl, -, hlow, hhigh⟩ := h
  exact ⟨Nat.mul_lt_mul_of_pos_right hlow unitsPerOne_pos,
    Nat.mul_lt_mul_of_pos_right hhigh unitsPerOne_pos⟩

theorem oddWhole_mul_iff {k : ℕ} (hlow : 2 ^ 52 ≤ k) (hhigh : k < 2 ^ 53) :
    OddWhole (k * unitsPerOne) ↔ k % 2 = 1 := by
  constructor
  · rintro ⟨j, hj, hodd, -⟩
    rwa [Nat.eq_of_mul_eq_mul_right unitsPerOne_pos hj]
  · intro hodd
    exact ⟨k, rfl, hodd, by omega, hhigh⟩

section WholePart

variable {u : ℕ}

/-- The whole part after one half was added to a double that is not negative. -/
theorem roundUnits_add_half_div (fits : Representable u) :
    (u + belowHalf = unitsPerHalf ∨ OddWhole u →
      roundUnits (u + unitsPerHalf) 1 / unitsPerOne = (u + unitsPerHalf) / unitsPerOne + 1) ∧
    (¬(u + belowHalf = unitsPerHalf ∨ OddWhole u) →
      roundUnits (u + unitsPerHalf) 1 / unitsPerOne = (u + unitsPerHalf) / unitsPerOne) := by
  have htwo := two_mul_unitsPerHalf
  have hpos := unitsPerOne_pos
  have hbelow := belowHalf_pos
  have hodd := @OddWhole.bounds u
  have hwhole : ∀ k, (k * unitsPerOne + unitsPerHalf) / unitsPerOne = k := fun k =>
    Nat.div_eq_of_lt_le (Nat.le_add_right _ _) (by rw [Nat.succ_mul]; omega)
  rcases Nat.lt_or_ge u unitsPerHalf with hsmall | hhalf
  · obtain ⟨-, hround⟩ := roundUnits_add_half_of_lt fits hsmall
    rw [hround, Nat.div_eq_of_lt (a := u + unitsPerHalf) (by omega)]
    constructor
    · intro h
      rw [if_pos (h.resolve_right fun h => by have := hodd h; omega)]
    · intro h
      rw [if_neg fun hlast => h (.inl hlast)]
  · rcases Nat.lt_or_ge u (2 ^ 52 * unitsPerOne) with hexact | hlarge
    · refine ⟨fun h => ?_, fun _ => roundUnits_add_half_of_le fits hhalf hexact⟩
      rcases h with h | h
      · omega
      · have := hodd h
        omega
    · rcases Nat.lt_or_ge u (2 ^ 53 * unitsPerOne) with htie | hlost
      · obtain ⟨k, rfl⟩ := dvd_of_large (e := 0) fits hlarge
        rw [Nat.pow_zero, Nat.one_mul, Nat.mul_comm unitsPerOne] at hlarge htie hhalf ⊢
        have hk := Nat.le_of_mul_le_mul_right hlarge hpos
        have hk' := Nat.lt_of_mul_lt_mul_right htie
        have hlast : k * unitsPerOne + belowHalf ≠ unitsPerHalf := by omega
        rw [or_iff_right hlast, oddWhole_mul_iff hk hk', roundUnits_add_half_of_whole hk hk',
          Nat.mul_div_cancel _ hpos, hwhole]
        omega
      · have hnot : ¬(u + belowHalf = unitsPerHalf ∨ OddWhole u) := by
          rintro (h | h)
          · omega
          · have := hodd h
            omega
        refine ⟨fun h => absurd h hnot, fun _ => ?_⟩
        rw [roundUnits_add_half_of_large fits hlost]
        obtain ⟨a, rfl⟩ := dvd_of_large (e := 1) fits hlost
        have hshape : 2 ^ 1 * unitsPerOne * a = 2 * a * unitsPerOne := by ring
        rw [hshape, hwhole, Nat.mul_div_cancel _ hpos]

/-- The whole part of a negative whole number with one half added to it. -/
theorem neg_whole_add_half_div (k : ℕ) :
    (-((k * unitsPerOne : ℕ) : ℤ) + unitsPerHalf) / unitsPerOne = -k := by
  have htwo := two_mul_unitsPerHalf
  have hpos := unitsPerOne_pos
  have hshape : -((k * unitsPerOne : ℕ) : ℤ) + unitsPerHalf = unitsPerHalf + -k * unitsPerOne := by
    push_cast
    ring
  rw [hshape, Int.add_mul_ediv_right _ _ (by omega), Int.ediv_eq_zero_of_lt (by omega) (by omega),
    Int.zero_add]

theorem neg_whole_div (k : ℕ) : -((k * unitsPerOne : ℕ) : ℤ) / unitsPerOne = -k := by
  have hpos := unitsPerOne_pos
  rw [Nat.cast_mul, ← Int.neg_mul, Int.mul_ediv_cancel _ (by omega)]

/-- The whole part after one half was added to a negative double. -/
theorem roundUnits_sub_half_div (fits : Representable u) (h : unitsPerHalf < u) :
    (OddWhole u → -(roundUnits (u - unitsPerHalf) 1 : ℤ) / unitsPerOne =
      (-(u : ℤ) + unitsPerHalf) / unitsPerOne + 1) ∧
    (¬OddWhole u → -(roundUnits (u - unitsPerHalf) 1 : ℤ) / unitsPerOne =
      (-(u : ℤ) + unitsPerHalf) / unitsPerOne) := by
  have hpos := unitsPerOne_pos
  have hodd := @OddWhole.bounds u
  rcases Nat.lt_or_ge (2 ^ 52 * unitsPerOne) u with hlarge | hexact
  · rcases Nat.lt_or_ge (2 ^ 53 * unitsPerOne) u with hlost | htie
    · refine ⟨fun h => absurd (hodd h).2 (by omega), fun _ => ?_⟩
      rw [roundUnits_sub_half_of_large fits hlost]
      obtain ⟨a, rfl⟩ := dvd_of_large (e := 1) fits hlost.le
      have hshape : 2 ^ 1 * unitsPerOne * a = 2 * a * unitsPerOne := by ring
      rw [hshape, neg_whole_div, neg_whole_add_half_div]
    · obtain ⟨k, rfl⟩ := dvd_of_large (e := 0) fits hlarge.le
      rw [Nat.pow_zero, Nat.one_mul, Nat.mul_comm unitsPerOne] at hlarge htie ⊢
      have hk := Nat.lt_of_mul_lt_mul_right hlarge
      have hk' := Nat.le_of_mul_le_mul_right htie hpos
      rw [roundUnits_sub_half_of_whole hk hk', neg_whole_div, neg_whole_add_half_div]
      rcases Nat.eq_or_lt_of_le hk' with rfl | hk'
      · refine ⟨fun h => absurd (OddWhole.bounds h).2 (by omega), fun _ => by decide⟩
      · rw [oddWhole_mul_iff hk.le hk']
        omega
  · refine ⟨fun h => absurd (hodd h).1 (by omega), fun _ => ?_⟩
    rw [roundUnits_of_representable (representable_sub_half fits hexact), Nat.cast_sub h.le,
      neg_sub, sub_eq_neg_add]

end WholePart

theorem floor?_ofUnitRatio {s : Bool} {m : ℕ} (h : roundUnits m 1 < unitsLimit) :
    (ofUnitRatio s m 1).floor? =
      some ((if s then -(roundUnits m 1 : ℤ) else roundUnits m 1) / unitsPerOne) := by
  unfold ofUnitRatio
  rw [dif_pos h]
  rfl

theorem add_half {x : Binary64} {n : ℤ} (h : x.signedUnits? = some n) :
    x.add half = if n + unitsPerHalf = 0 then zero false
      else ofUnitRatio (decide (n + unitsPerHalf < 0)) (n + unitsPerHalf).natAbs 1 := by
  cases x with
  | nan => cases h
  | infinite s => cases h
  | finite s u fits =>
    obtain rfl := Option.some.inj h
    have hzero : zero (s && false) = zero false := congrArg zero (Bool.and_false s)
    rw [half_eq, ← hzero]
    rfl

theorem floor?_add_half_of_nonneg {u : ℕ} (fits : Representable u) :
    ((finite false u fits).add half).floor? =
      some ((roundUnits (u + unitsPerHalf) 1 / unitsPerOne : ℕ) : ℤ) := by
  have hpos := belowHalf_lt
  have hunits : (finite false u fits).signedUnits? = some (u : ℤ) := rfl
  have habs : ((u : ℤ) + unitsPerHalf).natAbs = u + unitsPerHalf := by omega
  rw [add_half hunits, if_neg (by omega), decide_eq_false (by omega), habs,
    floor?_ofUnitRatio (roundUnits_lt_unitsLimit_of_le fits (Nat.le_refl _))]
  rfl

theorem floor?_add_half_of_neg {u : ℕ} (fits : Representable u) :
    ((finite true u fits).add half).floor? =
      some (if u ≤ unitsPerHalf then 0 else -(roundUnits (u - unitsPerHalf) 1 : ℤ) / unitsPerOne) := by
  have htwo := two_mul_unitsPerHalf
  have hpos := belowHalf_lt
  have hunits : (finite true u fits).signedUnits? = some (-(u : ℤ)) := rfl
  rw [add_half hunits]
  rcases Nat.lt_trichotomy u unitsPerHalf with hlt | heq | hgt
  · have habs : (-(u : ℤ) + unitsPerHalf).natAbs = unitsPerHalf - u := by omega
    have hsmall := (roundUnits_le_of_le representable_unitsPerHalf (Nat.sub_le unitsPerHalf u)).1
    rw [if_neg (by omega), if_pos hlt.le, decide_eq_false (by omega), habs,
      floor?_ofUnitRatio (roundUnits_lt_unitsLimit_of_le fits (by omega)), if_neg (by decide),
      Int.ediv_eq_zero_of_lt (by omega) (by omega)]
  · rw [if_pos (by omega), if_pos heq.le]
    exact congrArg some (Int.zero_ediv _)
  · have habs : (-(u : ℤ) + unitsPerHalf).natAbs = u - unitsPerHalf := by omega
    rw [if_neg (by omega), if_neg (by omega), decide_eq_true (by omega), habs,
      floor?_ofUnitRatio (roundUnits_lt_unitsLimit_of_le fits (by omega)), if_pos rfl]

/-- A double with one half added and cut off: the whole number that is half a one away at most,
or the next one where the sum is rounded up to it. -/
theorem floor?_add_half {x : Binary64} {n : ℤ} (h : x.signedUnits? = some n) :
    (n + belowHalf = unitsPerHalf ∨ OddWhole n.natAbs →
      (x.add half).floor? = some ((n + unitsPerHalf) / unitsPerOne + 1)) ∧
    (¬(n + belowHalf = unitsPerHalf ∨ OddWhole n.natAbs) →
      (x.add half).floor? = some ((n + unitsPerHalf) / unitsPerOne)) := by
  cases x with
  | nan => cases h
  | infinite s => cases h
  | finite s u fits =>
    cases s with
    | false =>
      obtain rfl : (u : ℤ) = n := Option.some.inj h
      have hround := roundUnits_add_half_div fits
      have hlast : (u : ℤ) + belowHalf = unitsPerHalf ↔ u + belowHalf = unitsPerHalf := by omega
      rw [floor?_add_half_of_nonneg, Int.natAbs_natCast, hlast]
      refine ⟨fun h => ?_, fun h => ?_⟩
      · rw [hround.1 h]
        rfl
      · rw [hround.2 h]
        rfl
    | true =>
      obtain rfl : -(u : ℤ) = n := Option.some.inj h
      have htwo := two_mul_unitsPerHalf
      have hbelow := belowHalf_lt
      have hlast : ¬-(u : ℤ) + belowHalf = unitsPerHalf := by omega
      rw [floor?_add_half_of_neg, Int.natAbs_neg, Int.natAbs_natCast, or_iff_right hlast]
      rcases Nat.lt_or_ge unitsPerHalf u with hlarge | hsmall
      · have hround := roundUnits_sub_half_div fits hlarge
        rw [if_neg (by omega)]
        exact ⟨fun h => congrArg some (hround.1 h), fun h => congrArg some (hround.2 h)⟩
      · rw [if_pos hsmall, Int.ediv_eq_zero_of_lt (by omega) (by omega)]
        exact ⟨fun h => absurd h.bounds.1 (by omega), fun _ => rfl⟩

end ImageSizing.Binary64
