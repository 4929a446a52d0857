import ImageSizing.Proofs.Binary64.Value

/-!
# Multiplying and dividing again

A double that is multiplied by a whole number and divided by it again comes back if the product is
a double, and otherwise off by one in 2⁵² at most.  No magnitude is an exception: small products are
exact, and of the quotient no double is farther away than the one to begin with.
-/

namespace ImageSizing

theorem roundQuotient_mul_right {n d c : ℕ} (hc : 0 < c) :
    roundQuotient (n * c) (d * c) = roundQuotient n d := by
  have hlow : 2 * (n % d) * c < d * c ↔ 2 * (n % d) < d := Nat.mul_lt_mul_right hc
  have hhigh : d * c < 2 * (n % d) * c ↔ d < 2 * (n % d) := Nat.mul_lt_mul_right hc
  unfold roundQuotient
  rw [Nat.mul_mod_mul_right, Nat.mul_div_mul_right _ _ hc, ← Nat.mul_assoc]
  simp only [hlow, hhigh]

namespace Binary64

theorem roundUnits_mul_right {n d c : ℕ} (hc : 0 < c) :
    roundUnits (n * c) (d * c) = roundUnits n d := by
  unfold roundUnits
  rw [Nat.mul_div_mul_right _ _ hc, Nat.mul_right_comm, roundQuotient_mul_right hc]

section RoundTrip

variable {u k : ℕ}

/-- An exact product comes back. -/
theorem roundUnits_roundTrip_of_representable (hu : Representable u) (hk : 0 < k)
    (hproduct : Representable (u * k)) : roundUnits (roundUnits (u * k) 1) k = u := by
  have hscaled := roundUnits_mul_right (n := u) (d := 1) hk
  rw [Nat.one_mul] at hscaled
  rw [roundUnits_of_representable hproduct, hscaled, roundUnits_of_representable hu]

/-- Up to 2⁵³ units every magnitude is a double. -/
theorem representable_of_le {n : ℕ} (h : n ≤ 2 ^ 53) : Representable n := by
  have hlimit : 2 ^ 60 ≤ unitsLimit := by
    obtain ⟨e, -, -, hlimit⟩ := exists_unitsPerHalf
    exact Nat.le_trans (Nat.pow_le_pow_right (by decide) (by omega)) hlimit
  have hfits := representable_mul_two_pow (e := 0) (f := 0) h (by decide) hlimit
  rwa [Nat.pow_zero, Nat.mul_one] at hfits

/-- The rounded product is off by one in 2⁵³ at most, however small it is. -/
theorem roundUnits_product_error (u k : ℕ) :
    2 ^ 53 * |(roundUnits (u * k) 1 : ℚ) - u * k| ≤ u * k := by
  rcases Nat.lt_or_ge (2 ^ 53) (u * k) with hlarge | hsmall
  · obtain ⟨hlow, hhigh⟩ := roundUnits_error (n := u * k) Nat.one_pos (by omega)
    have hcast : ((2 ^ 53 - 1 : ℕ) : ℚ) = 2 ^ 53 - 1 := by norm_num
    have hlowq : (2 ^ 53 - 1) * ((u : ℚ) * k) ≤ 2 ^ 53 * roundUnits (u * k) 1 := by
      rw [← hcast]
      rw [Nat.one_mul] at hlow
      exact_mod_cast hlow
    have hhighq : 2 ^ 53 * (roundUnits (u * k) 1 : ℚ) ≤ (2 ^ 53 + 1) * (u * k) := by
      rw [Nat.one_mul] at hhigh
      exact_mod_cast hhigh
    rw [← le_div_iff₀' (by positivity), abs_le]
    constructor
    · rw [neg_le, neg_sub, le_div_iff₀' (by positivity)]
      linarith
    · rw [le_div_iff₀' (by positivity)]
      linarith
  · rw [roundUnits_of_representable (representable_of_le hsmall), Nat.cast_mul, sub_self, abs_zero,
      mul_zero]
    positivity

/-- A product that is no double comes back off by one in 2⁵² at most. -/
theorem roundUnits_roundTrip_error (hu : Representable u) (hk : 0 < k) :
    2 ^ 52 * |(roundUnits (roundUnits (u * k) 1) k : ℚ) - u| ≤ u := by
  have hkq : (0 : ℚ) < k := by exact_mod_cast hk
  have hproduct := roundUnits_product_error u k
  generalize roundUnits (u * k) 1 = p at hproduct
  have hquotient : 2 ^ 53 * |(p : ℚ) / k - u| ≤ u := by
    have hscaled : |(p : ℚ) - u * k| = |(p : ℚ) / k - u| * k := by
      rw [← abs_of_pos hkq, ← abs_mul, abs_of_pos hkq, sub_mul, div_mul_cancel₀ _ hkq.ne']
    rw [hscaled, ← mul_assoc] at hproduct
    exact le_of_mul_le_mul_right hproduct hkq
  -- of the two doubles the rounded one is the nearer
  have hnearest := (abs_sub_roundUnits_le_of_representable (n := p) hk hu).1
  have htriangle := abs_sub_le (roundUnits p k : ℚ) (p / k) u
  rw [abs_sub_comm _ ((p : ℚ) / k)] at htriangle
  linarith

/-- And it is finite. -/
theorem roundUnits_roundTrip_lt (hk : 0 < k) (hlimit : roundUnits (u * k) 1 < unitsLimit) :
    roundUnits (roundUnits (u * k) 1) k < unitsLimit := by
  refine Nat.lt_of_le_of_lt ?_ hlimit
  have hfits := representable_roundUnits hlimit
  generalize roundUnits (u * k) 1 = p at hfits ⊢
  have hnearest := (abs_sub_roundUnits_le_of_representable (n := p) hk hfits).1
  have hone : (1 : ℚ) ≤ k := by exact_mod_cast hk
  have hle : (p : ℚ) / k ≤ p := div_le_self (Nat.cast_nonneg p) hone
  rw [abs_sub_comm _ (p : ℚ), abs_of_nonneg (sub_nonneg.2 hle), abs_le] at hnearest
  have hcast : (roundUnits p k : ℚ) ≤ p := by linarith [hnearest.1]
  exact_mod_cast hcast

end RoundTrip

/-! ## Doubles -/

theorem finite_congr {s : Bool} {u v : ℕ} {hu : Representable u} {hv : Representable v} (h : u = v) :
    finite s u hu = finite s v hv := by
  subst h
  rfl

theorem ofUnitRatio_congr {s : Bool} {n d n' d' : ℕ} (h : roundUnits n d = roundUnits n' d') :
    ofUnitRatio s n d = ofUnitRatio s n' d' := by
  unfold ofUnitRatio
  simp only [h]

section Whole

variable {s : Bool} {u k : ℕ} {fits : Representable u} {whole : Representable (k * unitsPerOne)}

theorem mul_whole : (finite s u fits).mul (finite false (k * unitsPerOne) whole) =
    ofUnitRatio s (u * k) 1 := by
  have hscaled := roundUnits_mul_right (n := u * k) (d := 1) unitsPerOne_pos
  rw [Nat.one_mul, Nat.mul_assoc] at hscaled
  show ofUnitRatio (s != false) (u * (k * unitsPerOne)) unitsPerOne = _
  rw [Bool.bne_false, ofUnitRatio_congr hscaled]

theorem div_whole (hk : 0 < k) : (finite s u fits).div (finite false (k * unitsPerOne) whole) =
    ofUnitRatio s u k := by
  have hpos : k * unitsPerOne ≠ 0 := (Nat.mul_pos hk unitsPerOne_pos).ne'
  show (if k * unitsPerOne = 0 then _ else
    ofUnitRatio (s != false) (u * unitsPerOne) (k * unitsPerOne)) = _
  rw [if_neg hpos, Bool.bne_false, ofUnitRatio_congr (roundUnits_mul_right unitsPerOne_pos)]

/-- What comes back of a double. -/
theorem mul_div_whole (hk : 0 < k) :
    ((finite s u fits).mul (finite false (k * unitsPerOne) whole)).div
        (finite false (k * unitsPerOne) whole) =
      if h : roundUnits (u * k) 1 < unitsLimit then
        finite s (roundUnits (roundUnits (u * k) 1) k)
          (representable_roundUnits (roundUnits_roundTrip_lt hk h))
      else .infinite s := by
  rw [mul_whole]
  unfold ofUnitRatio
  by_cases h : roundUnits (u * k) 1 < unitsLimit
  · rw [dif_pos h, dif_pos h, div_whole hk]
    exact dif_pos (roundUnits_roundTrip_lt hk h)
  · rw [dif_neg h, dif_neg h]
    show infinite (s != false) = _
    rw [Bool.bne_false]

end Whole

/-- The double nearest to a positive integer is a positive integer, and the same one if that is a
double. -/
theorem exists_ofInt_natCast {m : ℕ} (hm : 0 < m) (hfin : (ofInt m).isFinite = true) :
    ∃ k whole, 0 < k ∧ ofInt m = finite false (k * unitsPerOne) whole ∧
      (IsDouble (m : ℤ) → k = m) := by
  by_cases hlt : roundUnits ((m : ℤ).natAbs * unitsPerOne) 1 < unitsLimit
  · obtain ⟨k, hwhole, hsame, hlarge⟩ := exists_roundUnits_whole hlt
    rw [Int.natAbs_natCast] at hsame hlarge
    refine ⟨k, hwhole ▸ representable_roundUnits hlt, ?_, ?_, ?_⟩
    · by_cases hfits : Representable (m * unitsPerOne)
      · rwa [hsame hfits]
      · exact Nat.lt_of_lt_of_le (by decide) (hlarge hfits).1
    · rw [ofInt_eq hlt, decide_eq_false (by omega)]
      exact finite_congr hwhole
    · intro hdouble
      rw [isDouble_intCast_iff, Int.natAbs_natCast] at hdouble
      exact hsame hdouble
  · have hinfinite : ofInt m = .infinite _ := dif_neg hlt
    rw [hinfinite] at hfin
    cases hfin


/-- What comes back has the same sign; it is the double itself if the product is exact, and otherwise
infinite or off by one in 2⁵² at most. -/
theorem mul_div_whole_cases {s : Bool} {u k : ℕ} (fits : Representable u)
    (whole : Representable (k * unitsPerOne)) (hk : 0 < k) {y : Binary64}
    (hy : y = ((finite s u fits).mul (finite false (k * unitsPerOne) whole)).div
      (finite false (k * unitsPerOne) whole)) :
    (Representable (u * k) → y = finite s u fits) ∧
      (y = .infinite s ∨ ∃ v fits', y = finite s v fits' ∧ 2 ^ 52 * |(v : ℚ) - u| ≤ u) := by
  rw [mul_div_whole hk] at hy
  constructor
  · intro hproduct
    have hlimit : roundUnits (u * k) 1 < unitsLimit := by
      rw [roundUnits_of_representable hproduct]
      exact hproduct.1
    rw [hy, dif_pos hlimit]
    exact finite_congr (roundUnits_roundTrip_of_representable fits hk hproduct)
  · by_cases hlimit : roundUnits (u * k) 1 < unitsLimit
    · rw [dif_pos hlimit] at hy
      exact .inr ⟨_, _, hy, roundUnits_roundTrip_error fits hk⟩
    · rw [dif_neg hlimit] at hy
      exact .inl hy

/-- Of two doubles not each is below the other. -/
theorem lt_swap {x y : Binary64} (h : x.lt y = true) : y.lt x = false := by
  cases x <;> cases y <;> simp [lt] at h ⊢
  · exact fun _ => h.1
  · exact h
  · exact h
  · exact h.le

/-- Doubles with one sign of which neither is below the other are the same. -/
theorem eq_of_not_lt {s : Bool} {u : ℕ} {fits : Representable u} {y : Binary64}
    (hy : y = .infinite s ∨ ∃ v fits', y = finite s v fits')
    (hbelow : (finite s u fits).lt y = false) (habove : y.lt (finite s u fits) = false) :
    y = finite s u fits := by
  rcases hy with rfl | ⟨v, fits', rfl⟩
  · cases s <;> simp [lt] at hbelow habove
  · have hsame : v = u := by
      cases s <;> simp [lt] at hbelow habove <;> omega
    exact finite_congr hsame

/-- A double multiplied by a positive integer and divided by it again is the same if the product is
a double; otherwise it is infinite or off by one in 2⁵² at most. -/
theorem mul_div_ofInt {x y : Binary64} {p : ℚ} {m : ℕ} (hx : x.value? = some p) (hm : 0 < m)
    (hfin : (ofInt m).isFinite = true) (hy : y = (x.mul (ofInt m)).div (ofInt m)) :
    (IsDouble (m : ℤ) → IsDouble (p * m) → y = x) ∧
      ((∃ s, y = .infinite s) ∨ ∃ q, y.value? = some q ∧ |q - p| ≤ |p| / 2 ^ 52) ∧
      (x.lt y = false → y.lt x = false → y = x) := by
  have hone := unitsPerOne_cast_pos
  obtain ⟨k, whole, hk, hofInt, hsame⟩ := exists_ofInt_natCast hm hfin
  rw [hofInt] at hy
  cases x with
  | nan => cases hx
  | infinite s => cases hx
  | finite s u fits =>
    obtain rfl := Option.some.inj hx
    obtain ⟨hexact, hcases⟩ := mul_div_whole_cases fits whole hk hy
    refine ⟨fun hdouble hproduct => hexact ?_, ?_, eq_of_not_lt (hcases.imp_right ?_)⟩
    · have hunits : ((if s then -(u : ℤ) else u : ℤ) : ℚ) / unitsPerOne * m =
          (((if s then -(u : ℤ) else u) * m : ℤ) : ℚ) / unitsPerOne := by
        push_cast
        ring
      have hsigned : (finite s u fits).signedUnits? = some (if s then -(u : ℤ) else u) := rfl
      rw [hunits, isDouble_units_iff, Int.natAbs_mul, natAbs_signedUnits hsigned,
        Int.natAbs_natCast] at hproduct
      rwa [hsame hdouble]
    · rcases hcases with hinfinite | ⟨v, fits', rfl, herror⟩
      · exact .inl ⟨s, hinfinite⟩
      · refine .inr ⟨_, rfl, ?_⟩
        have hdistance : |((if s then -(v : ℤ) else v : ℤ) : ℚ) - (if s then -(u : ℤ) else u : ℤ)| =
            |(v : ℚ) - u| := by
          cases s
          · simp
          · simp [abs_sub_comm, add_comm, ← sub_eq_add_neg]
        have hsize : |((if s then -(u : ℤ) else u : ℤ) : ℚ)| = u := by
          cases s <;> simp
        rw [← sub_div, abs_div, abs_div, hdistance, hsize, abs_of_pos hone, div_right_comm]
        refine div_le_div_of_nonneg_right ?_ hone.le
        rwa [le_div_iff₀' (by positivity)]
    · rintro ⟨v, fits', hv, -⟩
      exact ⟨v, fits', hv⟩

end Binary64

end ImageSizing
