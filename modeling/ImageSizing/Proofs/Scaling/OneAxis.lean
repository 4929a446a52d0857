import ImageSizing.Proofs.Binary64.RoundTrip
import ImageSizing.Proofs.Number.Quotient
import ImageSizing.Proofs.Scaling.Policies

/-!
# One axis

Where only one axis is given the other one is inferred, so that both ask for the same share of the
picture, and `contain` and `cover` have nothing to choose from.  In double precision the inferred
share is the given one multiplied by the other axis of the picture and divided by it again, and that
need not be the same: then `contain` takes the smaller and `cover` the larger of the two.  They agree
for factors that are integers and wherever the product is a double.
-/

namespace ImageSizing

/-- A size with one axis, that axis, its counterpart in the picture, and the other axis of the
picture. -/
inductive SizeSpec.GivesOnly (s : SizeSpec) (real : RealDimension) : Dimension → Number → Number → Prop
  | width (h : s.height.unit = .unspecified) : GivesOnly s real s.width real.width real.height
  | height (h : s.width.unit = .unspecified) : GivesOnly s real s.height real.height real.width

namespace Number

open Binary64

theorem toBinary64_int_cases (n : ℤ) :
    ((ofInt n).isFinite = true ∧ (int n).toBinary64 = .ok (ofInt n)) ∨
      (ofInt n).isFinite = false ∧ (int n).toBinary64 = .error .integerTooLarge := by
  rw [toBinary64_int]
  cases hfin : (ofInt n).isFinite with
  | true => exact .inl ⟨rfl, finiteOr_eq_ok hfin⟩
  | false =>
    refine .inr ⟨rfl, ?_⟩
    cases hn : ofInt n with
    | finite s u fits =>
      rw [hn] at hfin
      cases hfin
    | _ => rfl

/-- A finite double divided by a positive integer is finite. -/
theorem isFinite_div_ofInt {x : Binary64} (hx : x.isFinite = true) {n : ℕ} (hn : 0 < n)
    (hfin : (ofInt n).isFinite = true) : (x.div (ofInt n)).isFinite = true := by
  obtain ⟨k, whole, hk, hofInt, -⟩ := exists_ofInt_natCast hn hfin
  cases x with
  | nan => cases hx
  | infinite s => cases hx
  | finite s u fits =>
    have hu := two_mul_units_lt fits
    rw [hofInt, div_whole hk, isFinite_ofUnitRatio hk]
    exact Nat.lt_of_lt_of_le hu (Nat.le_mul_of_pos_left _ hk)

/-- A finite number divided by a positive integer is finite, unless a double would have to be divided
by an integer that is too large. -/
theorem div_natCast_cases {v : Number} (hv : v.isFinite = true) {n : ℕ} (hn : 0 < n) :
    (∃ q, v.div (int n) = .ok q ∧ q.isFinite = true) ∨
      (ofInt n).isFinite = false ∧ v.div (int n) = .error .integerTooLarge := by
  cases v with
  | int k =>
    rw [isFinite_int] at hv
    have hfin : (ofRatio (decide (k < 0) != decide ((n : ℤ) < 0)) k.natAbs (n : ℤ).natAbs).isFinite = true :=
      isFinite_ofRatio_mono Nat.one_pos (by omega) (Nat.mul_le_mul_left _ (by omega)) hv
    exact .inl ⟨_, div_int_eq (by omega) hfin, hfin⟩
  | float x =>
    have hmixed : ∀ i j, float x = .int i → int n ≠ .int j := nofun
    rcases toBinary64_int_cases n with ⟨hfin, hdouble⟩ | ⟨hlarge, hfault⟩
    · exact .inl ⟨_, div_doubles rfl hdouble (isZero_ofInt (by omega)) hmixed, isFinite_div_ofInt hv hn hfin⟩
    · exact .inr ⟨hlarge, div_of_fault hfault⟩

/-- An integer that is multiplied by another one and divided by it again comes back as a double. -/
theorem int_mul_div {k : ℤ} (hk : (ofInt k).isFinite = true) {m : ℕ} (hm : 0 < m) :
    (int k).mul (int m) = .ok (int (k * m)) ∧ (int (k * m)).div (int m) = .ok (ofInt k) := by
  refine ⟨rfl, ?_⟩
  have hsign : (decide (k * (m : ℤ) < 0) != decide ((m : ℤ) < 0)) = decide (k < 0) := by
    have hproduct : k * (m : ℤ) < 0 ↔ k < 0 := by
      rw [mul_neg_iff]
      omega
    rw [decide_eq_false (p := (m : ℤ) < 0) (by omega), Bool.bne_false, decide_eq_decide]
    exact hproduct
  have hsame : ofRatio (decide (k * (m : ℤ) < 0) != decide ((m : ℤ) < 0)) (k * m).natAbs (m : ℤ).natAbs =
      ofInt k := by
    have hscaled := roundUnits_mul_right (n := k.natAbs * unitsPerOne) (d := 1) hm
    rw [Nat.one_mul, Nat.mul_right_comm] at hscaled
    rw [hsign, Int.natAbs_mul, Int.natAbs_natCast]
    exact ofUnitRatio_congr hscaled
  rw [div_int_eq (by omega) (hsame ▸ hk), hsame]

/-- So does a double, if the integer is not too large. -/
theorem float_mul_div_cases (x : Binary64) {m : ℕ} (hm : 0 < m) :
    ((ofInt m).isFinite = true ∧ (float x).mul (int m) = .ok (float (x.mul (ofInt m))) ∧
      (float (x.mul (ofInt m))).div (int m) = .ok ((x.mul (ofInt m)).div (ofInt m))) ∨
      (ofInt m).isFinite = false ∧ (float x).mul (int m) = .error .integerTooLarge := by
  have hmixed : ∀ {z : Binary64} (i j : ℤ), float z = .int i → int m ≠ .int j := nofun
  rcases toBinary64_int_cases m with ⟨hfin, hdouble⟩ | ⟨hlarge, hfault⟩
  · exact .inl ⟨hfin, mul_doubles rfl hdouble hmixed,
      div_doubles rfl hdouble (isZero_ofInt (by omega)) hmixed⟩
  · exact .inr ⟨hlarge, mul_of_fault hfault⟩

end Number

namespace Scaling

open Binary64 Number

section

variable {s : SizeSpec} {real : RealDimension} {d : Dimension} {axis other : Number}

/-- The failure of a calculation with an axis that is too large for a double. -/
def axisTooLarge : Failure := .fault (.arithmetic .integerTooLarge)

/-! ## The two shares -/

theorem share?_cases (hc : d.isConcrete = true) (hd : d.Finite) {n : ℕ} (hn : 0 < n) :
    (∃ a, d.share? (.int n) = some a ∧ a.isFinite = true) ∨
      (ofInt n).isFinite = false ∧ relative d (.ofNumber (.int n)) = .error axisTooLarge := by
  obtain ⟨unit, value⟩ := d
  cases unit with
  | factor =>
    obtain ⟨v, rfl, hv⟩ := hd
    refine .inl ⟨v, ?_, hv⟩
    unfold Dimension.share?
    rw [number?_ofNumber]
  | pixel =>
    obtain ⟨v, rfl, hv⟩ := hd
    rcases div_natCast_cases hv hn with ⟨q, hq, hfin⟩ | ⟨hlarge, hfault⟩
    · refine .inl ⟨.float q, ?_, hfin⟩
      unfold Dimension.share?
      rw [number?_ofNumber]
      dsimp only
      rw [hq]
      rfl
    · refine .inr ⟨hlarge, ?_⟩
      show ((Value.ofNumber v).dividedBy (.ofNumber (.int n))).mapError Failure.fault = _
      rw [Value.dividedBy_ofNumber, Number.quotient, hfault]
      rfl
  | unspecified => cases hc
  | invalid => cases hc

/-- The inferred share is the given one after a round trip, and the same if that is an integer. -/
theorem inferredShare?_cases {a : Number} (ha : a.isFinite = true) {m : ℕ} (hm : 0 < m) :
    (∃ x y, a.toBinary64 = .ok x ∧ x.isFinite = true ∧ inferredShare? a (.int m) = some (.float y) ∧
      ((∃ k, a = .int k) ∧ y = x ∨
        a = .float x ∧ (ofInt m).isFinite = true ∧ y = (x.mul (ofInt m)).div (ofInt m))) ∨
      (ofInt m).isFinite = false ∧ a.mul (.int m) = .error .integerTooLarge := by
  cases a with
  | int k =>
    rw [isFinite_int] at ha
    obtain ⟨hmul, hdiv⟩ := int_mul_div ha hm
    have hdouble : (int k).toBinary64 = .ok (ofInt k) := (toBinary64_int k).trans (finiteOr_eq_ok ha)
    exact .inl ⟨ofInt k, ofInt k, hdouble, ha, inferredShare?_eq hmul hdiv, .inl ⟨⟨k, rfl⟩, rfl⟩⟩
  | float x =>
    rcases float_mul_div_cases x hm with ⟨hfin, hmul, hdiv⟩ | ⟨hlarge, hfault⟩
    · exact .inl ⟨x, _, rfl, ha, inferredShare?_eq hmul hdiv, .inr ⟨rfl, hfin, rfl⟩⟩
    · exact .inr ⟨hlarge, hfault⟩

/-! ## The two policies -/

theorem valid_of_givesOnly (h : s.GivesOnly real d axis other) (hc : d.isConcrete = true) : s.Valid := by
  obtain ⟨hvalid, hgiven⟩ := Dimension.given_of_isConcrete hc
  cases h with
  | width h => exact ⟨hvalid, by rw [h]; exact nofun, by rw [hgiven]; rfl⟩
  | height h => exact ⟨by rw [h]; exact nofun, hvalid, by rw [hgiven, Bool.or_true]⟩

/-- If the missing axis cannot be inferred, then both policies fail alike. -/
theorem apply_of_matching_fault (h : s.GivesOnly real d axis other) (hc : d.isConcrete = true)
    {f : Failure} (hf : matching d axis other = .error f) (c : Choice) :
    c.policy.apply s real = .fail f := by
  have hgiven := (Dimension.given_of_isConcrete hc).2
  have hinfer : inferMissing s real = .error f := by
    rw [inferMissing_eq]
    cases h with
    | width h =>
      have hmissing := (Dimension.isSpecified_eq_false_iff s.height).2 h
      rw [if_pos hgiven]
      show (if s.height.isSpecified = true then pure s.height
        else matching s.width real.width real.height) >>= (fun height =>
          pure (s.withSize s.width height)) = _
      rw [if_neg (by rw [hmissing]; exact Bool.false_ne_true), hf]
      rfl
    | height h =>
      have hmissing := (Dimension.isSpecified_eq_false_iff s.width).2 h
      rw [if_neg (by rw [hmissing]; exact Bool.false_ne_true), hf]
      rfl
  rw [apply_of_valid (valid_of_givesOnly h hc)]
  unfold scaleBoth
  rw [hinfer]
  rfl

/-- Both shares are there, in one order or the other. -/
theorem shares?_of_givesOnly (h : s.GivesOnly real d axis other) (hc : d.isConcrete = true)
    {a b : Number} (ha : d.share? axis = some a) (hb : inferredShare? a other = some b) :
    shares? s.width s.height real = some (a, b) ∨ shares? s.width s.height real = some (b, a) := by
  have hgiven := (Dimension.given_of_isConcrete hc).2
  unfold shares?
  cases h with
  | width h =>
    rw [hgiven, (Dimension.isSpecified_eq_false_iff s.height).2 h]
    dsimp only
    rw [ha]
    left
    show (inferredShare? a real.height >>= fun h => some (a, h)) = _
    rw [hb]
    rfl
  | height h =>
    rw [hgiven, (Dimension.isSpecified_eq_false_iff s.width).2 h]
    dsimp only
    rw [ha]
    right
    show (inferredShare? a real.width >>= fun w => some (w, a)) = _
    rw [hb]
    rfl

/-! ## The chosen share -/

/-- The chosen one of two doubles, the first unless the second is strictly better. -/
def Choice.pickDouble (c : Choice) (x y : Binary64) : Binary64 :=
  match c with
  | smaller => if y.lt x then y else x
  | larger => if x.lt y then y else x

theorem pick_float (c : Choice) (x y : Binary64) :
    c.pick (.float x) (.float y) = .float (c.pickDouble x y) := by
  cases c with
  | smaller => exact (apply_ite Number.float _ _ _).symm
  | larger => exact (apply_ite Number.float _ _ _).symm

theorem pickDouble_self (c : Choice) (x : Binary64) : c.pickDouble x x = x := by
  cases c with
  | smaller => exact ite_self x
  | larger => exact ite_self x

/-- The order of two doubles makes no difference, as long as one is below the other or they are the
same. -/
theorem pickDouble_comm (c : Choice) {x y : Binary64} (h : x.lt y = false → y.lt x = false → y = x) :
    c.pickDouble y x = c.pickDouble x y := by
  cases hxy : x.lt y with
  | true =>
    have hyx := lt_swap hxy
    cases c <;> simp [Choice.pickDouble, hxy, hyx]
  | false =>
    cases hyx : y.lt x with
    | true => cases c <;> simp [Choice.pickDouble, hxy, hyx]
    | false => rw [h hxy hyx]

theorem pickDouble_eq_iff {x y : Binary64} (h : x.lt y = false → y.lt x = false → y = x) :
    Choice.smaller.pickDouble x y = Choice.larger.pickDouble x y ↔ y = x := by
  constructor
  · intro heq
    cases hxy : x.lt y with
    | true =>
      have hyx := lt_swap hxy
      unfold Choice.pickDouble at heq
      rw [hxy, hyx] at heq
      exact heq.symm
    | false =>
      cases hyx : y.lt x with
      | true =>
        unfold Choice.pickDouble at heq
        rw [hxy, hyx] at heq
        exact heq
      | false => exact h hxy hyx
  · rintro rfl
    rw [pickDouble_self, pickDouble_self]

/-- Whichever order the two shares are compared in, one double is chosen. -/
theorem toBinary64_pick {a : Number} {x y : Binary64} (ha : a.toBinary64 = .ok x)
    (hy : y = x ∨ a = .float x ∧ (x.lt y = false → y.lt x = false → y = x)) (c : Choice) :
    (c.pick a (.float y)).toBinary64 = .ok (c.pickDouble x y) ∧
      (c.pick (.float y) a).toBinary64 = .ok (c.pickDouble x y) := by
  rcases hy with rfl | ⟨rfl, htotal⟩
  · have hpick : ∀ {b b' : Number}, b.toBinary64 = .ok y → b'.toBinary64 = .ok y →
        (c.pick b b').toBinary64 = .ok y := by
      intro b b' hb hb'
      cases c with
      | smaller =>
        show (if b'.lt b = true then b' else b).toBinary64 = _
        split <;> assumption
      | larger =>
        show (if b.lt b' = true then b' else b).toBinary64 = _
        split <;> assumption
    rw [pickDouble_self]
    exact ⟨hpick ha rfl, hpick rfl ha⟩
  · rw [pick_float, pick_float, pickDouble_comm c htotal]
    exact ⟨rfl, rfl⟩

/-- Scaling by the chosen one of the two shares. -/
theorem apply_of_shares (h : s.GivesOnly real d axis other) (hc : d.isConcrete = true) {a : Number}
    {x y : Binary64} (ha : d.share? axis = some a) (hx : a.toBinary64 = .ok x)
    (hb : inferredShare? a other = some (.float y))
    (hy : y = x ∨ a = .float x ∧ (x.lt y = false → y.lt x = false → y = x)) (c : Choice) :
    c.policy.apply s real =
      pure (s.withSize (.factor (c.pickDouble x y)) (.factor (c.pickDouble x y))) := by
  obtain ⟨hpick, hpick'⟩ := toBinary64_pick hx hy c
  rcases shares?_of_givesOnly h hc ha hb with hshares | hshares
  · exact scale_valid (valid_of_givesOnly h hc) c hshares hpick'
  · exact scale_valid (valid_of_givesOnly h hc) c hshares hpick

/-- The two policies take the same double exactly if the two shares are the same. -/
theorem contain_eq_cover_iff (h : s.GivesOnly real d axis other) (hc : d.isConcrete = true) {a : Number}
    {x y : Binary64} (ha : d.share? axis = some a) (hx : a.toBinary64 = .ok x)
    (hb : inferredShare? a other = some (.float y))
    (hy : y = x ∨ a = .float x ∧ (x.lt y = false → y.lt x = false → y = x)) :
    contain s real = cover s real ↔ y = x := by
  have hcontain : contain s real = _ := apply_of_shares h hc ha hx hb hy .smaller
  have hcover : cover s real = _ := apply_of_shares h hc ha hx hb hy .larger
  have htotal : x.lt y = false → y.lt x = false → y = x := by
    rcases hy with hsame | ⟨-, htotal⟩
    · exact fun _ _ => hsame
    · exact htotal
  rw [← pickDouble_eq_iff htotal, hcontain, hcover]
  constructor
  · intro heq
    have hspec := Except.ok.inj (congrArg Logged.result heq)
    have hfactor := congrArg (fun t : SizeSpec => t.width.value) hspec
    exact Value.float.inj hfactor
  · intro heq
    rw [heq]

/-- An integer comes back as it was, and so does a double whose product is one; other doubles are off
by one in 2⁵² at most. -/
theorem comesBack {a : Number} {x y : Binary64} {p : ℚ} {m : ℕ} (hp : x.value? = some p) (hm : 0 < m)
    (hy : (∃ k, a = .int k) ∧ y = x ∨
      a = .float x ∧ (ofInt m).isFinite = true ∧ y = (x.mul (ofInt m)).div (ofInt m)) :
    ((∃ k, a = .int k) ∨ IsDouble (m : ℤ) ∧ IsDouble (p * m) → y = x) ∧
      ((∃ negative, y = .infinite negative) ∨ ∃ q, y.value? = some q ∧ |q - p| ≤ |p| / 2 ^ 52) ∧
      (y = x ∨ a = .float x ∧ (x.lt y = false → y.lt x = false → y = x)) := by
  rcases hy with ⟨-, rfl⟩ | ⟨rfl, hmfin, hy⟩
  · refine ⟨fun _ => rfl, .inr ⟨p, hp, ?_⟩, .inl rfl⟩
    rw [sub_self, abs_zero]
    positivity
  · obtain ⟨hexact, herror, htotal⟩ := mul_div_ofInt hp hm hmfin hy
    refine ⟨?_, herror, .inr ⟨rfl, htotal⟩⟩
    rintro (⟨k, hk⟩ | ⟨hdouble, hproduct⟩)
    · cases hk
    · exact hexact hdouble hproduct

/-- A share that cannot be multiplied leaves the missing axis without a value. -/
theorem matching_of_mul_fault {a : Number} (ha : d.share? axis = some a) {f : ArithmeticFault}
    (hf : a.mul other = .error f) : matching d axis other = .error (.fault (.arithmetic f)) := by
  unfold matching
  rw [relative_of_share? ha]
  show (do
    let pixels ← ((Value.ofNumber a).times (.ofNumber other)).mapError Failure.fault
    return Dimension.pixel pixels) = _
  rw [Value.times_ofNumber, Number.product, hf]
  rfl

theorem axes_pos_of_givesOnly (h : s.GivesOnly real d axis other) {n m : ℕ} (hn : axis = .int n)
    (hm : other = .int m) : 0 < n ∧ 0 < m := by
  have hpos : ∀ {b : Number} {k : ℕ}, b.isNonpositive = false → b = .int k → 0 < k := by
    rintro b k hb rfl
    have hk := int_pos hb
    omega
  cases h with
  | width h => exact ⟨hpos real.width_pos hn, hpos real.height_pos hm⟩
  | height h => exact ⟨hpos real.height_pos hn, hpos real.width_pos hm⟩

/-- With one axis given `contain` and `cover` take the smaller and the larger one of its share and of
what comes back of the share after it was multiplied by the other axis of the picture and divided by
it again.  They agree exactly if the share comes back as it was, which it does if it is an integer or
if the product is a double; otherwise it is off by one in 2⁵² at most, or infinite.  Both fail where a
double meets an axis of the picture that is too large for one. -/
theorem contain_cover_oneAxis (h : s.GivesOnly real d axis other) (hc : d.isConcrete = true)
    (hd : d.Finite) {n m : ℕ} (hn : axis = .int n) (hm : other = .int m) :
    (((ofInt n).isFinite = false ∨ (ofInt m).isFinite = false) ∧
      contain s real = .fail axisTooLarge ∧ cover s real = .fail axisTooLarge) ∨
    ∃ a x y p, d.share? axis = some a ∧ a.toBinary64 = .ok x ∧ x.value? = some p ∧
      inferredShare? a other = some (.float y) ∧
      contain s real = pure (s.withSize (.factor (Choice.smaller.pickDouble x y))
        (.factor (Choice.smaller.pickDouble x y))) ∧
      cover s real = pure (s.withSize (.factor (Choice.larger.pickDouble x y))
        (.factor (Choice.larger.pickDouble x y))) ∧
      (contain s real = cover s real ↔ y = x) ∧
      ((∃ k, a = .int k) ∨ IsDouble (m : ℤ) ∧ IsDouble (p * m) → y = x) ∧
      ((∃ negative, y = .infinite negative) ∨ ∃ q, y.value? = some q ∧ |q - p| ≤ |p| / 2 ^ 52) := by
  obtain ⟨hn0, hm0⟩ := axes_pos_of_givesOnly h hn hm
  subst hn hm
  have hfails : ∀ f, matching d (.int n) (.int m) = .error f →
      contain s real = .fail f ∧ cover s real = .fail f := fun f hf =>
    ⟨apply_of_matching_fault h hc hf .smaller, apply_of_matching_fault h hc hf .larger⟩
  rcases share?_cases hc hd hn0 with ⟨a, ha, hfin⟩ | ⟨hlarge, hfault⟩
  · rcases inferredShare?_cases hfin hm0 with ⟨x, y, hx, hxfin, hb, hy⟩ | ⟨hlarge, hfault⟩
    · obtain ⟨p, hp⟩ := exists_value_of_isFinite hxfin
      obtain ⟨hexact, herror, htrip⟩ := comesBack hp hm0 hy
      exact .inr ⟨a, x, y, p, ha, hx, hp, hb, apply_of_shares h hc ha hx hb htrip .smaller,
        apply_of_shares h hc ha hx hb htrip .larger, contain_eq_cover_iff h hc ha hx hb htrip,
        hexact, herror⟩
    · exact .inl ⟨.inr hlarge, hfails _ (matching_of_mul_fault ha hfault)⟩
  · refine .inl ⟨.inl hlarge, hfails _ ?_⟩
    unfold matching
    rw [hfault]
    rfl

/-- On six hundredths of the width of a picture of 25 by 11 the two differ. -/
theorem contain_cover_oneAxis_differ : ∃ (s : SizeSpec) (real : RealDimension),
    s.GivesOnly real (.factor (ofDecimal false 6 (-2))) (.int 25) (.int 11) ∧
      contain s real ≠ cover s real := by
  let s : SizeSpec := ⟨.factor (ofDecimal false 6 (-2)), .unspecified, [], [], []⟩
  let real : RealDimension := ⟨.int 25, .int 11, by decide, by decide⟩
  have honly : s.GivesOnly real (.factor (ofDecimal false 6 (-2))) (.int 25) (.int 11) := .width rfl
  have hfinite : (Number.float (ofDecimal false 6 (-2))).isFinite = true := by decide +kernel
  refine ⟨s, real, honly, ?_⟩
  rcases contain_cover_oneAxis (n := 25) (m := 11) honly rfl ⟨_, rfl, hfinite⟩ rfl rfl with
    ⟨hlarge, -⟩ | ⟨a, x, y, p, ha, hx, -, hy, -, -, hiff, -, -⟩
  · exact absurd hlarge (by decide +kernel)
  · obtain rfl : Number.float (ofDecimal false 6 (-2)) = a := Option.some.inj ha
    obtain rfl : ofDecimal false 6 (-2) = x := Except.ok.inj hx
    intro heq
    have hmul := (float_mul_div_cases (ofDecimal false 6 (-2)) (m := 11) (by decide)).resolve_right
      fun hlarge => absurd hlarge.1 (by decide +kernel)
    have hround : Number.float (((ofDecimal false 6 (-2)).mul (ofInt 11)).div (ofInt 11)) = .float y :=
      Option.some.inj ((inferredShare?_eq hmul.2.1 hmul.2.2).symm.trans hy)
    rw [hiff.1 heq] at hround
    revert hround
    decide +kernel

end

end Scaling

end ImageSizing
