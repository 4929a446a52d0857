import Mathlib.Algebra.Group.Nat.Defs
import ImageSizing.Binary64.Rounding

/-!
# Overflow

When a rounded quotient is a finite double.  With 53 significant digits the doubles end
halfway between the largest one and 2¹⁰²⁴, and a quotient halfway there goes up, because
the largest double is odd in its last digit:

    roundUnits n d < unitsLimit ↔ 2 * n < d * overflowBound   (roundUnits_lt_unitsLimit_iff)

So finiteness depends on the size of the quotient alone, and a quotient that is no larger
than a finite one is finite (`isFinite_ofRatio_mono`).
-/

namespace ImageSizing.Binary64

theorem le_roundQuotient (n d : Nat) : n / d ≤ roundQuotient n d := by
  unfold roundQuotient
  split
  · exact Nat.le_refl _
  · split <;> omega

/-- Above an odd number halfway is rounded up. -/
theorem roundQuotient_lt_iff {n d m : Nat} (hd : 0 < d) (hm : m % 2 = 1) :
    roundQuotient n d < m + 1 ↔ 2 * n < d * (2 * m + 1) := by
  have hsplit : d * (n / d) + n % d = n := Nat.div_add_mod n d
  have hmod : n % d < d := Nat.mod_lt n hd
  have hbound : d * (2 * m + 1) = 2 * (d * m) + d := by
    rw [Nat.mul_add, Nat.mul_one, Nat.mul_left_comm]
  rcases Nat.lt_trichotomy (n / d) m with hlt | heq | hgt
  · have hup := roundQuotient_le n d
    have hmul : d * (n / d + 1) ≤ d * m := Nat.mul_le_mul_left d hlt
    rw [Nat.mul_add, Nat.mul_one] at hmul
    constructor
    · intro _
      omega
    · intro _
      omega
  · rw [heq] at hsplit
    unfold roundQuotient
    rw [heq]
    split
    · omega
    · split <;> omega
  · have hdown := le_roundQuotient n d
    have hmul : d * (m + 1) ≤ d * (n / d) := Nat.mul_le_mul_left d hgt
    rw [Nat.mul_add, Nat.mul_one] at hmul
    constructor
    · intro h
      omega
    · intro h
      omega

/-- From 53 digits on, 2⁵² spacings make the power of two just below a magnitude. -/
theorem two_pow_mul_spacing {u : Nat} (h : 52 ≤ u.log2) : 2 ^ 52 * spacing u = 2 ^ u.log2 := by
  show 2 ^ 52 * 2 ^ (u.log2 - 52) = 2 ^ u.log2
  rw [← Nat.pow_add, Nat.add_sub_cancel' h]

theorem ne_zero_of_le_log2 {u : Nat} (h : 52 ≤ u.log2) : u ≠ 0 := by
  rintro rfl
  simp at h

theorem two_pow_le_div_spacing {u : Nat} (h : 52 ≤ u.log2) : 2 ^ 52 ≤ u / spacing u := by
  rw [Nat.le_div_iff_mul_le (spacing_pos u), two_pow_mul_spacing h]
  exact Nat.log2_self_le (ne_zero_of_le_log2 h)

/-- Rounding goes up by one spacing at most. -/
theorem roundUnits_le_add_spacing (n d : Nat) : roundUnits n d ≤ n / d + spacing (n / d) := by
  have hround := roundQuotient_le n (d * spacing (n / d))
  rw [← Nat.div_div_eq_div_mul] at hround
  calc roundUnits n d ≤ (n / d / spacing (n / d) + 1) * spacing (n / d) :=
        Nat.mul_le_mul_right _ hround
    _ = n / d / spacing (n / d) * spacing (n / d) + spacing (n / d) := by rw [Nat.add_mul, Nat.one_mul]
    _ ≤ n / d + spacing (n / d) := Nat.add_le_add_right (Nat.div_mul_le_self _ _) _

/-- Rounding does not go down past a power of two. -/
theorem two_pow_log2_le_roundUnits {n d : Nat} (h : 52 ≤ (n / d).log2) :
    2 ^ (n / d).log2 ≤ roundUnits n d := by
  have hround := le_roundQuotient n (d * spacing (n / d))
  rw [← Nat.div_div_eq_div_mul] at hround
  rw [← two_pow_mul_spacing h]
  exact Nat.mul_le_mul_right _ (Nat.le_trans (two_pow_le_div_spacing h) hround)

/-- Twice the middle between `2 ^ (e + 53)` and the unit count of the double before it. -/
def doubledMiddle (e : Nat) : Nat := 2 ^ e * (2 ^ 54 - 1)

theorem mul_doubledMiddle (d e : Nat) : d * doubledMiddle e = d * 2 ^ e * (2 ^ 54 - 1) :=
  (Nat.mul_assoc d (2 ^ e) _).symm

/-- In the binade below the power of two the grid is the one of the double before it. -/
theorem roundUnits_lt_two_pow_iff_of_log2 {n d e : Nat} (hd : 0 < d) (hlog : (n / d).log2 = e + 52) :
    roundUnits n d < 2 ^ (e + 53) ↔ 2 * n < d * doubledMiddle e := by
  have hspace : spacing (n / d) = 2 ^ e := by
    show 2 ^ ((n / d).log2 - 52) = 2 ^ e
    rw [hlog, Nat.add_sub_cancel]
  have htop : (2 : Nat) ^ 53 = (2 ^ 53 - 1) + 1 := by decide
  have hodd : 2 * (2 ^ 53 - 1) + 1 = (2 : Nat) ^ 54 - 1 := by decide
  have hpos : 0 < 2 ^ e := Nat.two_pow_pos e
  unfold roundUnits
  rw [hspace, Nat.pow_add, Nat.mul_comm (2 ^ e), Nat.mul_lt_mul_right hpos, htop,
    roundQuotient_lt_iff (Nat.mul_pos hd hpos) (by decide), hodd, mul_doubledMiddle]

/-- Rounding stays below a power of two as long as the quotient stays below the middle between
it and the double before it. -/
theorem roundUnits_lt_two_pow_iff {n d : Nat} (hd : 0 < d) (e : Nat) :
    roundUnits n d < Nat.pow 2 (e + 53) ↔ 2 * n < d * doubledMiddle e := by
  show roundUnits n d < 2 ^ (e + 53) ↔ _
  have hsplit : d * (n / d) + n % d = n := Nat.div_add_mod n d
  have hmod : n % d < d := Nat.mod_lt n hd
  have hpow : ∀ j, (2 : Nat) ^ (e + j) = 2 ^ e * 2 ^ j := fun j => Nat.pow_add 2 e j
  have hde : 0 < d * 2 ^ e := Nat.mul_pos hd (Nat.two_pow_pos e)
  rcases Nat.lt_or_ge (n / d) (2 ^ (e + 52)) with hlow | hlow
  · -- far below: both sides hold
    have hlog : (n / d).log2 < e + 52 := by
      by_cases h0 : n / d = 0
      · rw [h0]
        simp
      · exact (Nat.log2_lt h0).2 hlow
    have hspace : spacing (n / d) ≤ 2 ^ e := Nat.pow_le_pow_right (by decide) (by omega)
    have hround := roundUnits_le_add_spacing n d
    have hquot : d * (n / d + 1) ≤ d * 2 ^ (e + 52) := Nat.mul_le_mul_left d hlow
    rw [hpow 52, ← Nat.mul_assoc, Nat.mul_add, Nat.mul_one] at hquot
    rw [hpow 52] at hlow
    rw [hpow 53, mul_doubledMiddle]
    exact iff_of_true (by omega) (by omega)
  · rcases Nat.lt_or_ge (n / d) (2 ^ (e + 53)) with hhigh | hhigh
    · have hne : n / d ≠ 0 := Nat.ne_of_gt (Nat.lt_of_lt_of_le (Nat.two_pow_pos _) hlow)
      have hle := (Nat.le_log2 hne).2 hlow
      have hlt := (Nat.log2_lt hne).2 hhigh
      exact roundUnits_lt_two_pow_iff_of_log2 hd (by omega)
    · -- beyond the limit before any rounding
      have hne : n / d ≠ 0 := Nat.ne_of_gt (Nat.lt_of_lt_of_le (Nat.two_pow_pos _) hhigh)
      have hlog : e + 53 ≤ (n / d).log2 := (Nat.le_log2 hne).2 hhigh
      have hround := two_pow_log2_le_roundUnits (n := n) (d := d) (by omega)
      have hgrow : 2 ^ (e + 53) ≤ 2 ^ (n / d).log2 := Nat.pow_le_pow_right (by decide) hlog
      have hquot : d * 2 ^ (e + 53) ≤ d * (n / d) := Nat.mul_le_mul_left d hhigh
      rw [hpow 53, ← Nat.mul_assoc] at hquot
      rw [mul_doubledMiddle]
      exact iff_of_false (by omega) (by omega)

/-- Twice the least number of units that is rounded beyond the finite doubles. -/
def overflowBound : Nat := doubledMiddle 2045

theorem roundUnits_lt_unitsLimit_iff {n d : Nat} (hd : 0 < d) :
    roundUnits n d < unitsLimit ↔ 2 * n < d * overflowBound := by
  have hexponent : 2098 = 2045 + 53 := rfl
  unfold unitsLimit
  rw [hexponent]
  exact roundUnits_lt_two_pow_iff hd 2045

theorem isFinite_ofUnitRatio {negative : Bool} {n d : Nat} (hd : 0 < d) :
    (ofUnitRatio negative n d).isFinite = true ↔ 2 * n < d * overflowBound := by
  rw [← roundUnits_lt_unitsLimit_iff hd]
  unfold ofUnitRatio
  by_cases h : roundUnits n d < unitsLimit
  · rw [dif_pos h]
    exact iff_of_true rfl h
  · rw [dif_neg h]
    exact iff_of_false (by simp [isFinite]) h

/-- A quotient no larger than one with a finite double has a finite double. -/
theorem isFinite_ofRatio_mono {s s' : Bool} {n d n' d' : Nat} (hd : 0 < d) (hd' : 0 < d')
    (h : n' * d ≤ n * d') (hf : (ofRatio s n d).isFinite = true) :
    (ofRatio s' n' d').isFinite = true := by
  have hn : 2 * (n * unitsPerOne) < d * overflowBound := (isFinite_ofUnitRatio hd).1 hf
  refine (isFinite_ofUnitRatio hd').2 (Nat.lt_of_mul_lt_mul_left (a := d) ?_)
  calc d * (2 * (n' * unitsPerOne)) = 2 * (n' * d * unitsPerOne) := by
        rw [Nat.mul_left_comm, ← Nat.mul_assoc d, Nat.mul_comm d n']
    _ ≤ 2 * (n * d' * unitsPerOne) := Nat.mul_le_mul_left 2 (Nat.mul_le_mul_right _ h)
    _ = d' * (2 * (n * unitsPerOne)) := by
        rw [Nat.mul_left_comm d', ← Nat.mul_assoc d', Nat.mul_comm d' n]
    _ < d' * (d * overflowBound) := Nat.mul_lt_mul_of_pos_left hn hd'
    _ = d * (d' * overflowBound) := Nat.mul_left_comm _ _ _

/-- No whole number of units but zero is rounded to zero. -/
theorem roundUnits_pos {u : Nat} (h : 0 < u) : 0 < roundUnits u 1 := by
  have hspace : spacing u ≤ u :=
    Nat.le_trans (Nat.pow_le_pow_right (by decide) (Nat.sub_le _ _)) (Nat.log2_self_le (by omega))
  have hdiv : 1 ≤ u / spacing u := (Nat.le_div_iff_mul_le (spacing_pos u)).2 (by omega)
  have hround := le_roundQuotient u (spacing u)
  unfold roundUnits
  rw [Nat.div_one, Nat.one_mul]
  exact Nat.mul_pos (by omega) (spacing_pos u)

theorem unitsPerOne_pos : 0 < unitsPerOne := by decide +kernel

theorem isZero_ofInt {n : Int} (hn : n ≠ 0) : (ofInt n).isZero = false := by
  have hunits : 0 < n.natAbs * unitsPerOne := Nat.mul_pos (by omega) unitsPerOne_pos
  have hround := roundUnits_pos hunits
  unfold ofInt ofRatio ofUnitRatio
  by_cases h : roundUnits (n.natAbs * unitsPerOne) 1 < unitsLimit
  · rw [dif_pos h]
    unfold isZero
    rw [beq_eq_false_iff_ne]
    omega
  · rw [dif_neg h]
    rfl

/-! ## Operations that do not overflow -/

/-- The exponent of the last distance between neighbouring doubles. -/
@[irreducible] def topExponent : Nat := 2045

/-- The distance between neighbouring doubles just below the limit. -/
def topSpacing : Nat := Nat.pow 2 topExponent

theorem topSpacing_pos : 0 < topSpacing := Nat.pow_pos (by decide)

theorem topSpacing_mul (k : Nat) : topSpacing * 2 ^ k = Nat.pow 2 (topExponent + k) :=
  (Nat.pow_add 2 topExponent k).symm

theorem topExponent_eq : topExponent = 2045 := by
  unfold topExponent
  rfl

theorem overflowBound_eq : overflowBound = topSpacing * (2 ^ 54 - 1) := by
  unfold overflowBound
  rw [← topExponent_eq]
  rfl

theorem unitsLimit_eq : unitsLimit = topSpacing * 2 ^ 53 := by
  have hexponent : 2098 = topExponent + 53 := by rw [topExponent_eq]
  rw [topSpacing_mul]
  unfold unitsLimit
  rw [hexponent]

/-- Beyond half of the limit the doubles are one top spacing apart. -/
theorem topSpacing_dvd {u : Nat} (h : Representable u) (hlow : topSpacing * 2 ^ 52 ≤ u) :
    topSpacing ∣ u := by
  have hhigh := h.1
  rw [unitsLimit_eq, topSpacing_mul] at hhigh
  rw [topSpacing_mul] at hlow
  have hne : u ≠ 0 := Nat.ne_of_gt (Nat.lt_of_lt_of_le (Nat.pow_pos (by decide)) hlow)
  have hle : topExponent + 52 ≤ u.log2 := (Nat.le_log2 hne).2 hlow
  have hlt : u.log2 < topExponent + 53 := (Nat.log2_lt hne).2 hhigh
  have hexponent : u.log2 - 52 = topExponent := by omega
  have hdvd := h.2
  rw [hexponent] at hdvd
  exact hdvd

/-- The doubles end half a top spacing below the overflow bound. -/
theorem two_mul_units_add_le {u : Nat} (h : Representable u) :
    2 * u + topSpacing ≤ overflowBound := by
  have hlt := h.1
  rw [overflowBound_eq]
  rw [unitsLimit_eq] at hlt
  rcases Nat.lt_or_ge u (topSpacing * 2 ^ 52) with hlow | hhigh
  · omega
  · obtain ⟨k, rfl⟩ := topSpacing_dvd h hhigh
    have hk : k ≤ 2 ^ 53 - 1 := Nat.le_sub_one_of_lt (Nat.lt_of_mul_lt_mul_left hlt)
    have hmul := Nat.mul_le_mul_left topSpacing hk
    omega

theorem two_mul_units_lt {u : Nat} (h : Representable u) : 2 * u < overflowBound := by
  have hle := two_mul_units_add_le h
  have hpos := topSpacing_pos
  omega

/-- The units of a double that is known by its signed units. -/
theorem exists_units {x : Binary64} {n : Nat} (h : x.signedUnits? = some (n : Int)) :
    ∃ s fits, x = finite s n fits := by
  cases x with
  | nan => cases h
  | infinite s => cases h
  | finite s u fits =>
    have hsigned := Option.some.inj h
    have hu : u = n := by
      cases s <;> simp at hsigned <;> omega
    subst hu
    exact ⟨s, fits, rfl⟩

/-- A hundredth of a finite double is finite. -/
theorem isFinite_div_hundred {x : Binary64} (h : x.isFinite = true) :
    (x.div hundred).isFinite = true := by
  have hunits : hundred.signedUnits? = some ((100 * unitsPerOne : Nat) : Int) := by decide +kernel
  have hpos := unitsPerOne_pos
  obtain ⟨t, hfits, hhundred⟩ := exists_units hunits
  cases x with
  | nan => cases h
  | infinite s => cases h
  | finite s u fits =>
    have hu := two_mul_units_lt fits
    rw [hhundred]
    show (if 100 * unitsPerOne = 0 then _ else
      ofUnitRatio (s != t) (u * unitsPerOne) (100 * unitsPerOne)).isFinite = true
    rw [if_neg (by omega), isFinite_ofUnitRatio (by omega)]
    calc 2 * (u * unitsPerOne) = 2 * u * unitsPerOne := (Nat.mul_assoc _ _ _).symm
      _ < overflowBound * unitsPerOne := Nat.mul_lt_mul_of_pos_right hu hpos
      _ ≤ 100 * unitsPerOne * overflowBound := by
        rw [Nat.mul_comm overflowBound]
        exact Nat.mul_le_mul_right _ (Nat.le_mul_of_pos_left _ (by decide))

@[irreducible] def unitsPerHalf : Nat := Nat.pow 2 1073

theorem two_mul_unitsPerHalf_lt : 2 * unitsPerHalf < topSpacing := by decide +kernel

/-- Adding one half to a finite double does not lead beyond the finite ones. -/
theorem isFinite_add_half {x : Binary64} (h : x.isFinite = true) : (x.add half).isFinite = true := by
  have hunits : half.signedUnits? = some (unitsPerHalf : Int) := by decide +kernel
  have hsmall := two_mul_unitsPerHalf_lt
  obtain ⟨t, hfits, hhalf⟩ := exists_units hunits
  cases x with
  | nan => cases h
  | infinite s => cases h
  | finite s u fits =>
    have hu := two_mul_units_add_le fits
    have hsum : ∀ sum : Int, sum.natAbs ≤ u + unitsPerHalf →
        (if sum = 0 then zero (s && t) else
          ofUnitRatio (decide (sum < 0)) sum.natAbs 1).isFinite = true := by
      intro sum hle
      by_cases hzero : sum = 0
      · rw [if_pos hzero]
        rfl
      · rw [if_neg hzero, isFinite_ofUnitRatio Nat.one_pos, Nat.one_mul]
        omega
    rw [hhalf]
    refine hsum _ ?_
    cases s <;> cases t <;> simp <;> omega

end ImageSizing.Binary64
