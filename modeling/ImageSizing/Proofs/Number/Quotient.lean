import ImageSizing.Number
import ImageSizing.Proofs.Binary64.Overflow

/-!
# Quotients by the axes of a picture

Axes are positive and have a nearest double, or are infinite or `nan` themselves.  Every
number with a nearest double can be divided by such an axis, and it can be multiplied by one
and divided by it again.  The product of two integers may lie beyond the doubles, but its
quotient does not: it is the first factor, and that has a double.
-/

namespace ImageSizing.Number

/-- A number that can take part in calculations with doubles. -/
def HasDouble (v : Number) : Prop := ∃ x, v.toBinary64 = .ok x

theorem hasDouble_float (x : Binary64) : (float x).HasDouble := ⟨x, rfl⟩

theorem hasDouble_of_isFinite {v : Number} (h : v.isFinite = true) : v.HasDouble := by
  unfold isFinite at h
  cases hv : v.toBinary64 with
  | ok x => exact ⟨x, hv⟩
  | error f =>
    rw [hv] at h
    cases h

theorem finiteOr_eq_ok {f : ArithmeticFault} {x : Binary64} (h : x.isFinite = true) :
    finiteOr f x = .ok x := by
  cases x with
  | finite s u fits => rfl
  | _ => cases h

theorem toBinary64_int (n : Int) :
    (int n).toBinary64 = finiteOr .integerTooLarge (Binary64.ofInt n) := rfl

theorem isFinite_of_toBinary64 {v : Number} {x : Binary64} (h : v.toBinary64 = .ok x) :
    v.isFinite = x.isFinite := by
  unfold isFinite
  rw [h]

theorem isFinite_of_fault {v : Number} {f : ArithmeticFault} (h : v.toBinary64 = .error f) :
    v.isFinite = false := by
  unfold isFinite
  rw [h]

theorem isFinite_int (n : Int) : (int n).isFinite = (Binary64.ofInt n).isFinite := by
  have hn := toBinary64_int n
  cases hx : Binary64.ofInt n with
  | finite s u fits =>
    rw [hx] at hn
    exact isFinite_of_toBinary64 hn
  | nan =>
    rw [hx] at hn
    exact isFinite_of_fault hn
  | infinite s =>
    rw [hx] at hn
    exact isFinite_of_fault hn

theorem isFinite_of_hasDouble {n : Int} (h : (int n).HasDouble) :
    (Binary64.ofInt n).isFinite = true := by
  obtain ⟨x, hx⟩ := h
  rw [toBinary64_int] at hx
  cases hn : Binary64.ofInt n with
  | finite s u fits => rfl
  | nan =>
    rw [hn] at hx
    cases hx
  | infinite s =>
    rw [hn] at hx
    cases hx

/-! ## Axes -/

theorem int_pos {n : Int} (h : (int n).isNonpositive = false) : 0 < n := by
  unfold isNonpositive lt numericEq at h
  simp at h
  omega

/-- A positive axis with a double is no zero as a double either. -/
theorem exists_divisor {axis : Number} (pos : axis.isNonpositive = false) (hd : axis.HasDouble) :
    ∃ y, axis.toBinary64 = .ok y ∧ y.isZero = false := by
  cases axis with
  | int n =>
    have hn : 0 < n := int_pos pos
    refine ⟨Binary64.ofInt n, ?_, ?_⟩
    · rw [toBinary64_int]
      exact finiteOr_eq_ok (isFinite_of_hasDouble hd)
    · exact Binary64.isZero_ofInt (by omega)
  | float x =>
    refine ⟨x, rfl, ?_⟩
    cases x with
    | nan => rfl
    | infinite s => rfl
    | finite s u fits =>
      show (u == 0) = false
      rw [beq_eq_false_iff_ne]
      rintro rfl
      cases s <;> simp [isNonpositive, lt, numericEq, Binary64.ltInt, Binary64.eqInt] at pos

theorem div_int_eq {m n : Int} (hn : n ≠ 0)
    (h : (Binary64.ofRatio (decide (m < 0) != decide (n < 0)) m.natAbs n.natAbs).isFinite = true) :
    (int m).div (int n) =
      .ok (Binary64.ofRatio (decide (m < 0) != decide (n < 0)) m.natAbs n.natAbs) := by
  have hdiv : (int m).div (int n) = if n = 0 then .error .divisionByZero
      else finiteOr .quotientTooLarge
        (Binary64.ofRatio (decide (m < 0) != decide (n < 0)) m.natAbs n.natAbs) := rfl
  rw [hdiv, if_neg hn, finiteOr_eq_ok h]

theorem div_int {m n : Int} (hn : n ≠ 0)
    (h : (Binary64.ofRatio (decide (m < 0) != decide (n < 0)) m.natAbs n.natAbs).isFinite = true) :
    ∃ q, (int m).div (int n) = .ok q := ⟨_, div_int_eq hn h⟩

/-- A quotient that goes through doubles exists unless the divisor is zero. -/
theorem div_doubles {a b : Number} {x y : Binary64} (ha : a.toBinary64 = .ok x)
    (hb : b.toBinary64 = .ok y) (hy : y.isZero = false)
    (hmixed : ∀ m n, a = .int m → b ≠ .int n) : a.div b = .ok (Binary64.div x y) := by
  unfold div
  split
  · exact absurd rfl (hmixed _ _ rfl)
  · rw [ha, hb]
    show (if y.isZero = true then _ else _) = _
    rw [hy, if_neg (by decide)]

/-- So does a product. -/
theorem mul_doubles {a b : Number} {x y : Binary64} (ha : a.toBinary64 = .ok x)
    (hb : b.toBinary64 = .ok y) (hmixed : ∀ m n, a = .int m → b ≠ .int n) :
    a.mul b = .ok (float (Binary64.mul x y)) := by
  unfold mul
  split
  · exact absurd rfl (hmixed _ _ rfl)
  · rw [ha, hb]
    rfl

/-- Neither exists if the double meets an integer without one. -/
theorem div_of_fault {x : Binary64} {b : Number} {f : ArithmeticFault} (h : b.toBinary64 = .error f) :
    (float x).div b = .error f := by
  unfold div
  split
  · rename_i hint
    cases hint
  · rw [h]
    rfl

theorem mul_of_fault {x : Binary64} {b : Number} {f : ArithmeticFault} (h : b.toBinary64 = .error f) :
    (float x).mul b = .error f := by
  unfold mul
  split
  · rename_i hint
    cases hint
  · rw [h]
    rfl

/-- Two integers, or two numbers of which one is a double. -/
theorem int_or_mixed (a b : Number) :
    (∃ m n, a = .int m ∧ b = .int n) ∨ ∀ m n, a = .int m → b ≠ .int n := by
  cases a with
  | float x => exact .inr fun m n h => by cases h
  | int m =>
    cases b with
    | float y => exact .inr fun m n _ h => by cases h
    | int n => exact .inl ⟨m, n, rfl, rfl⟩

theorem exists_div {a axis : Number} (ha : a.HasDouble) (pos : axis.isNonpositive = false)
    (hd : axis.HasDouble) : ∃ q, a.div axis = .ok q := by
  obtain ⟨y, hy, hzero⟩ := exists_divisor pos hd
  rcases int_or_mixed a axis with ⟨m, n, rfl, rfl⟩ | hmixed
  · have hn : 0 < n := int_pos pos
    have hm := isFinite_of_hasDouble ha
    refine div_int (by omega) (Binary64.isFinite_ofRatio_mono Nat.one_pos (by omega) ?_ hm)
    exact Nat.mul_le_mul_left _ (by omega)
  · obtain ⟨x, hx⟩ := ha
    exact ⟨_, div_doubles hx hy hzero hmixed⟩

/-- What an axis multiplies it also divides. -/
theorem exists_mul_div {a axis : Number} (ha : a.HasDouble) (pos : axis.isNonpositive = false)
    (hd : axis.HasDouble) : ∃ p q, a.mul axis = .ok p ∧ p.div axis = .ok q := by
  obtain ⟨y, hy, hzero⟩ := exists_divisor pos hd
  rcases int_or_mixed a axis with ⟨m, n, rfl, rfl⟩ | hmixed
  · have hn : 0 < n := int_pos pos
    have hm := isFinite_of_hasDouble ha
    have hfin : (Binary64.ofRatio (decide (m * n < 0) != decide (n < 0)) (m * n).natAbs
        n.natAbs).isFinite = true := by
      refine Binary64.isFinite_ofRatio_mono Nat.one_pos (by omega) (Nat.le_of_eq ?_) hm
      rw [Int.natAbs_mul, Nat.mul_one]
    obtain ⟨q, hq⟩ := div_int (by omega) hfin
    exact ⟨int (m * n), q, rfl, hq⟩
  · obtain ⟨x, hx⟩ := ha
    obtain ⟨q, hq⟩ := exists_div (hasDouble_float (Binary64.mul x y)) pos hd
    exact ⟨_, q, mul_doubles hx hy hmixed, hq⟩

/-! ## Whole pixels -/

/-- Any two numbers with doubles have a product. -/
theorem exists_mul {a b : Number} (ha : a.HasDouble) (hb : b.HasDouble) : ∃ p, a.mul b = .ok p := by
  rcases int_or_mixed a b with ⟨m, n, rfl, rfl⟩ | hmixed
  · exact ⟨int (m * n), rfl⟩
  · obtain ⟨x, hx⟩ := ha
    obtain ⟨y, hy⟩ := hb
    exact ⟨_, mul_doubles hx hy hmixed⟩

theorem exists_floor {x : Binary64} (h : x.isFinite = true) : ∃ n, floor x = .ok n := by
  cases x with
  | finite s u fits => exact ⟨_, rfl⟩
  | _ => cases h

/-- A finite number can be rounded to whole pixels: half a pixel more is finite too. -/
theorem exists_roundHalfUp {v : Number} (h : v.isFinite = true) : ∃ n, v.roundHalfUp = .ok n := by
  obtain ⟨x, hx⟩ := hasDouble_of_isFinite h
  rw [isFinite_of_toBinary64 hx] at h
  obtain ⟨n, hn⟩ := exists_floor (Binary64.isFinite_add_half h)
  refine ⟨n, ?_⟩
  unfold roundHalfUp
  rw [hx]
  exact hn

end ImageSizing.Number
