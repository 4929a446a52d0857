import ImageSizing.Proofs.Binary64.Nearest

/-!
# Exact values

A finite double stands for a fraction, its signed units over the units in one.  Which fractions are
doubles depends on their units alone (`isDouble_units_iff`), and for integers on their size: those
of 53 digits are, and of the larger ones those that are multiples of a power of two.  A double
without its fractional part is its value without that (`truncate?_eq`).
-/

namespace ImageSizing.Binary64

/-! ## Whole numbers in units -/

theorem dvd_of_representable {u e : ℕ} (h : Representable u) (hlow : 2 ^ (e + 52) ≤ u) :
    2 ^ e ∣ u := by
  have hne : u ≠ 0 := Nat.ne_of_gt (Nat.lt_of_lt_of_le (Nat.two_pow_pos _) hlow)
  have hlog := (Nat.le_log2 hne).2 hlow
  exact Nat.dvd_trans (Nat.pow_dvd_pow 2 (by omega)) h.2

/-- Large doubles are multiples of a power of two. -/
theorem dvd_of_large {u e : ℕ} (fits : Representable u) (h : 2 ^ (e + 52) * unitsPerOne ≤ u) :
    2 ^ e * unitsPerOne ∣ u := by
  obtain ⟨f, -, hone, -⟩ := exists_unitsPerHalf
  rw [hone, ← Nat.pow_add] at h ⊢
  refine dvd_of_representable fits (Nat.le_trans (Nat.le_of_eq ?_) h)
  congr 1
  omega

/-- A larger multiple is larger by the number at least. -/
theorem mul_add_le_of_mul_lt {n a b : ℕ} (h : n * a < n * b) : n * a + n ≤ n * b := by
  rw [← Nat.mul_succ]
  exact Nat.mul_le_mul_left n (Nat.lt_of_mul_lt_mul_left h)

/-- An integer is rounded to an integer, a double to itself and everything else to an even one. -/
theorem exists_roundUnits_whole {n : ℕ} (hlt : roundUnits (n * unitsPerOne) 1 < unitsLimit) :
    ∃ k, roundUnits (n * unitsPerOne) 1 = k * unitsPerOne ∧ (Representable (n * unitsPerOne) → k = n) ∧
      (¬Representable (n * unitsPerOne) → 2 ^ 53 ≤ k ∧ k % 2 = 0) := by
  by_cases hfits : Representable (n * unitsPerOne)
  · exact ⟨n, roundUnits_of_representable hfits, fun _ => rfl, fun h => absurd hfits h⟩
  · have htop : Representable (2 ^ 53 * unitsPerOne) := representable_mul_unitsPerOne (Nat.le_refl _)
    have hlarge : 2 ^ 53 * unitsPerOne ≤ n * unitsPerOne := by
      refine Nat.mul_le_mul_right _ (Nat.le_of_not_lt fun hsmall => hfits ?_)
      exact representable_mul_unitsPerOne hsmall.le
    have hround := (le_roundUnits_of_le htop hlarge).1
    obtain ⟨a, ha⟩ := dvd_of_large (e := 1) (representable_roundUnits hlt) hround
    have hwhole : roundUnits (n * unitsPerOne) 1 = 2 * a * unitsPerOne := by
      rw [ha]
      ring
    rw [hwhole] at hround
    refine ⟨2 * a, hwhole, fun h => absurd h hfits, fun _ => ⟨?_, Nat.mul_mod_right 2 a⟩⟩
    exact Nat.le_of_mul_le_mul_right hround unitsPerOne_pos

/-! ## Values -/

/-- The exact value of a finite double. -/
def value? (x : Binary64) : Option ℚ := x.signedUnits?.map fun n : ℤ => (n : ℚ) / unitsPerOne

theorem exists_value_of_isFinite {x : Binary64} (h : x.isFinite = true) : ∃ p, x.value? = some p := by
  cases x with
  | nan => cases h
  | infinite s => cases h
  | finite s u fits => exact ⟨_, rfl⟩

/-- Fractions that are doubles. -/
def IsDouble (q : ℚ) : Prop := ∃ x : Binary64, x.value? = some q

theorem exists_signedUnits {x : Binary64} {q : ℚ} (h : x.value? = some q) :
    ∃ n : ℤ, x.signedUnits? = some n ∧ q = (n : ℚ) / unitsPerOne := by
  obtain ⟨n, hn, rfl⟩ := Option.map_eq_some_iff.1 h
  exact ⟨n, hn, rfl⟩

/-- A whole number in units. -/
theorem units_eq_intCast_iff {n k : ℤ} : (n : ℚ) / unitsPerOne = k ↔ n = k * unitsPerOne := by
  rw [div_eq_iff unitsPerOne_cast_pos.ne']
  norm_cast

/-- The double nearest to an integer, if that is finite. -/
theorem ofInt_eq {n : ℤ} (h : roundUnits (n.natAbs * unitsPerOne) 1 < unitsLimit) :
    ofInt n = .finite (decide (n < 0)) (roundUnits (n.natAbs * unitsPerOne) 1)
      (representable_roundUnits h) := dif_pos h

theorem value?_finite_whole (s : Bool) {k u : ℕ} (fits : Representable u) (hu : u = k * unitsPerOne) :
    (finite s u fits).value? = some ((if s then -(k : ℤ) else k : ℤ) : ℚ) := by
  have hunits : (if s then -(u : ℤ) else u) = (if s then -(k : ℤ) else k) * unitsPerOne := by
    rw [hu, Nat.cast_mul]
    cases s
    · rw [if_neg Bool.false_ne_true, if_neg Bool.false_ne_true]
    · rw [if_pos rfl, if_pos rfl, neg_mul]
  exact congrArg some (units_eq_intCast_iff.2 hunits)

theorem signed_natAbs (n : ℤ) : (if decide (n < 0) = true then -(n.natAbs : ℤ) else n.natAbs) = n := by
  by_cases hneg : n < 0
  · rw [decide_eq_true hneg, if_pos rfl]
    omega
  · rw [decide_eq_false hneg, if_neg (by decide)]
    omega

theorem natAbs_signedUnits {s : Bool} {u : ℕ} {fits : Representable u} {m : ℤ}
    (h : (finite s u fits).signedUnits? = some m) : m.natAbs = u := by
  obtain rfl := Option.some.inj h
  cases s <;> simp

/-- Fractions that are doubles, in units. -/
theorem isDouble_units_iff {n : ℤ} : IsDouble ((n : ℚ) / unitsPerOne) ↔ Representable n.natAbs := by
  have hone := unitsPerOne_cast_pos
  constructor
  · rintro ⟨x, hx⟩
    obtain ⟨m, hm, hvalue⟩ := exists_signedUnits hx
    rw [div_left_inj' hone.ne', Int.cast_inj] at hvalue
    subst hvalue
    cases x with
    | nan => cases hm
    | infinite s => cases hm
    | finite s u fits =>
      rw [natAbs_signedUnits hm]
      exact fits
  · intro fits
    refine ⟨finite (decide (n < 0)) _ fits, ?_⟩
    show some _ = _
    rw [signed_natAbs]

/-- Integers that are doubles, in units. -/
theorem isDouble_intCast_iff {n : ℤ} : IsDouble n ↔ Representable (n.natAbs * unitsPerOne) := by
  have hunits : (n : ℚ) = ((n * unitsPerOne : ℤ) : ℚ) / unitsPerOne :=
    (units_eq_intCast_iff.2 rfl).symm
  rw [hunits, isDouble_units_iff, Int.natAbs_mul, Int.natAbs_natCast]

/-! ## Fractional parts -/

/-- A fraction without its fractional part. -/
def towardsZero (q : ℚ) : ℤ := if 0 ≤ q then ⌊q⌋ else ⌈q⌉

theorem tdiv_eq_towardsZero (n : ℤ) {k : ℕ} (hk : 0 < k) : n.tdiv k = towardsZero ((n : ℚ) / k) := by
  have hk' : (0 : ℚ) < k := by exact_mod_cast hk
  unfold towardsZero
  by_cases hn : 0 ≤ n
  · have hq : 0 ≤ (n : ℚ) / k := div_nonneg (by exact_mod_cast hn) hk'.le
    rw [if_pos hq, Rat.floor_intCast_div_natCast]
    exact Int.tdiv_eq_ediv_of_nonneg hn
  · have hq : ¬0 ≤ (n : ℚ) / k := by
      rw [not_le]
      exact div_neg_of_neg_of_pos (by exact_mod_cast not_le.1 hn) hk'
    rw [if_neg hq, Rat.ceil_intCast_div_natCast, ← Int.tdiv_eq_ediv_of_nonneg (by omega),
      Int.neg_tdiv, neg_neg]

theorem truncate?_eq (x : Binary64) : x.truncate? = x.value?.map towardsZero := by
  unfold truncate? value?
  rw [Option.map_map]
  refine congrArg (Option.map · x.signedUnits?) (funext fun n => ?_)
  exact tdiv_eq_towardsZero n unitsPerOne_pos

end ImageSizing.Binary64
