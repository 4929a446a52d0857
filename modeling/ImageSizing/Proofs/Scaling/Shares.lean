import ImageSizing.Proofs.Scaling.Concrete
import ImageSizing.Proofs.Dimension.Readable

/-!
# Shares of the real axes

What `contain` and `cover` choose between, in terms of numbers: the share of its real axis
that a readable dimension asks for (`Dimension.share?`), the share of an axis that was left
out (`inferredShare?`), and both together (`shares?`).  On readable axes of which one is
given all of them exist (`exists_shares`), and scaling goes by the smaller or the larger:

    scaleBoth c s real = .ok (s.withSize (.factor f) (.factor f))   (scaleBoth_eq)
-/

namespace ImageSizing

/-- The share of a real axis that pixels or a factor ask for. -/
def Dimension.share? (d : Dimension) (axis : Number) : Option Number :=
  match d.unit, d.value.number? with
  | .factor, some v => some v
  | .pixel, some v => (v.div axis).toOption.map .float
  | _, _ => none

namespace Scaling

/-- The share of an axis that is given as many pixels as keep the share of the other one. -/
def inferredShare? (share axis : Number) : Option Number := do
  let pixels ← (share.mul axis).toOption
  (pixels.div axis).toOption.map .float

/-- The shares of width and height, that of a missing axis inferred. -/
def shares? (width height : Dimension) (real : RealDimension) : Option (Number × Number) :=
  match width.isSpecified, height.isSpecified with
  | true, true => do
    let w ← width.share? real.width
    let h ← height.share? real.height
    return (w, h)
  | true, false => do
    let w ← width.share? real.width
    let h ← inferredShare? w real.height
    return (w, h)
  | false, true => do
    let h ← height.share? real.height
    let w ← inferredShare? h real.width
    return (w, h)
  | false, false => none

/-- The chosen one of two numbers. -/
def Choice.pick : Choice → Number → Number → Number
  | smaller => Number.min
  | larger => Number.max

/-! ## Calculations with numbers -/

theorem number?_ofNumber (v : Number) : (Value.ofNumber v).number? = some v := by
  cases v <;> rfl

theorem eq_ofNumber {value : Value} {v : Number} (h : value.number? = some v) :
    value = .ofNumber v := by
  cases value with
  | int n =>
    cases h
    rfl
  | float x =>
    cases h
    rfl
  | _ => cases h

theorem toBinary64_ofNumber (v : Number) :
    (Value.ofNumber v).toBinary64 = v.toBinary64.mapError .arithmetic := by
  cases v <;> rfl

theorem dividedBy_eq {a b : Number} {q : Binary64} (h : a.div b = .ok q) :
    (Value.ofNumber a).dividedBy (.ofNumber b) = .ok (.ofNumber (.float q)) := by
  rw [Value.dividedBy_ofNumber, Number.quotient, h]
  rfl

theorem times_eq {a b p : Number} (h : a.mul b = .ok p) :
    (Value.ofNumber a).times (.ofNumber b) = .ok (.ofNumber p) := by
  rw [Value.times_ofNumber, Number.product, h]
  rfl

/-- Of two numbers that one is chosen that `pick` picks. -/
theorem of_ofNumber (c : Choice) (a b : Number) :
    c.of (.ofNumber a) (.ofNumber b) = .ok (.ofNumber (c.pick a b)) := by
  cases c with
  | smaller =>
    have hprefers : Choice.smaller.prefers (.ofNumber b) (.ofNumber a) = .ok (b.lt a) := by
      show (Value.below? (.ofNumber b) (.ofNumber a)).mapError _ = _
      rw [Value.below?_ofNumber]
      rfl
    unfold Choice.of
    rw [hprefers]
    show Except.ok (if b.lt a = true then Value.ofNumber b else .ofNumber a) =
      .ok (.ofNumber (if b.lt a = true then b else a))
    cases b.lt a <;> rfl
  | larger =>
    have hprefers : Choice.larger.prefers (.ofNumber b) (.ofNumber a) = .ok (a.lt b) := by
      show (Value.below? (.ofNumber a) (.ofNumber b)).mapError _ = _
      rw [Value.below?_ofNumber]
      rfl
    unfold Choice.of
    rw [hprefers]
    show Except.ok (if a.lt b = true then Value.ofNumber b else .ofNumber a) =
      .ok (.ofNumber (if a.lt b = true then b else a))
    cases a.lt b <;> rfl

theorem hasDouble_pick (c : Choice) {a b : Number} (ha : a.HasDouble) (hb : b.HasDouble) :
    (c.pick a b).HasDouble := by
  cases c with
  | smaller =>
    show (if b.lt a = true then b else a).HasDouble
    split
    · exact hb
    · exact ha
  | larger =>
    show (if a.lt b = true then b else a).HasDouble
    split
    · exact hb
    · exact ha

theorem pick_self (c : Choice) (a : Number) : c.pick a a = a := by
  cases c with
  | smaller => exact ite_self a
  | larger => exact ite_self a

theorem ok_of_toOption {ε α : Type} {x : Except ε α} {a : α} (h : x.toOption = some a) :
    x = .ok a := by
  cases x with
  | ok b =>
    cases h
    rfl
  | error e => cases h

/-! ## Shares -/

theorem relative_of_share? {d : Dimension} {axis v : Number} (h : d.share? axis = some v) :
    relative d (.ofNumber axis) = .ok (.ofNumber v) := by
  obtain ⟨unit, value⟩ := d
  unfold Dimension.share? at h
  cases hn : value.number? with
  | none =>
    dsimp only at h
    rw [hn] at h
    cases unit <;> cases h
  | some n =>
    dsimp only at h
    rw [hn] at h
    obtain rfl := eq_ofNumber hn
    cases unit with
    | factor =>
      cases h
      rfl
    | pixel =>
      cases hq : n.div axis with
      | error f =>
        dsimp only at h
        rw [hq] at h
        cases h
      | ok q =>
        dsimp only at h
        rw [hq] at h
        cases h
        show ((Value.ofNumber n).dividedBy (.ofNumber axis)).mapError Failure.fault = _
        rw [dividedBy_eq hq]
        rfl
    | unspecified => cases h
    | invalid => cases h

theorem matching_of_share? {d : Dimension} {axis other v p : Number} (h : d.share? axis = some v)
    (hp : v.mul other = .ok p) : matching d axis other = .ok (.pixel (.ofNumber p)) := by
  unfold matching
  rw [relative_of_share? h]
  show (do
    let pixels ← ((Value.ofNumber v).times (.ofNumber other)).mapError Failure.fault
    return Dimension.pixel pixels) = _
  rw [times_eq hp]
  rfl

/-- An inferred axis has the share that `inferredShare?` says. -/
theorem relative_of_inferredShare? {d : Dimension} {axis other v w : Number}
    (h : d.share? axis = some v) (hw : inferredShare? v other = some w) :
    ∃ t, matching d axis other = .ok t ∧ relative t (.ofNumber other) = .ok (.ofNumber w) := by
  unfold inferredShare? at hw
  obtain ⟨p, hp, hw⟩ := Option.bind_eq_some_iff.1 hw
  obtain ⟨q, hq, rfl⟩ := Option.map_eq_some_iff.1 hw
  have hmul : v.mul other = .ok p := ok_of_toOption hp
  have hdiv : p.div other = .ok q := ok_of_toOption hq
  refine ⟨_, matching_of_share? h hmul, ?_⟩
  show ((Value.ofNumber p).dividedBy (.ofNumber other)).mapError Failure.fault = _
  rw [dividedBy_eq hdiv]
  rfl

/-! ## The missing axis -/

theorem inferMissing_both {s : SizeSpec} (real : RealDimension) (hw : s.width.isSpecified = true)
    (hh : s.height.isSpecified = true) : inferMissing s real = .ok s := by
  unfold inferMissing
  rw [if_pos hw]
  show (if s.height.isSpecified = true then _ else _) = _
  rw [if_pos hh]
  rfl

theorem inferMissing_height {s : SizeSpec} {real : RealDimension} {t : Dimension}
    (hw : s.width.isSpecified = true) (hh : s.height.isSpecified = false)
    (ht : matching s.width real.width real.height = .ok t) :
    inferMissing s real = .ok (s.withSize s.width t) := by
  unfold inferMissing
  rw [if_pos hw]
  show (if s.height.isSpecified = true then _ else _) = _
  rw [if_neg (by simp [hh])]
  show (matching s.width real.width real.height >>= fun t => pure (s.withSize s.width t)) = _
  rw [ht]
  rfl

theorem inferMissing_width {s : SizeSpec} {real : RealDimension} {t : Dimension}
    (hw : s.width.isSpecified = false) (hh : s.height.isSpecified = true)
    (ht : matching s.height real.height real.width = .ok t) :
    inferMissing s real = .ok (s.withSize t s.height) := by
  unfold inferMissing
  rw [if_neg (by simp [hw]), ht]
  show (if s.height.isSpecified = true then _ else _) = _
  rw [if_pos hh]
  rfl

/-- Filling the missing axis gives both axes their shares. -/
theorem inferMissing_of_shares? {s : SizeSpec} {real : RealDimension} {w h : Number}
    (hshares : shares? s.width s.height real = some (w, h)) :
    ∃ width height, inferMissing s real = .ok (s.withSize width height) ∧
      relative width (.ofNumber real.width) = .ok (.ofNumber w) ∧
      relative height (.ofNumber real.height) = .ok (.ofNumber h) := by
  unfold shares? at hshares
  cases hwidth : s.width.isSpecified with
  | true =>
    cases hheight : s.height.isSpecified with
    | true =>
      rw [hwidth, hheight] at hshares
      obtain ⟨w', hw, hshares⟩ := Option.bind_eq_some_iff.1 hshares
      obtain ⟨h', hh, hshares⟩ := Option.bind_eq_some_iff.1 hshares
      cases hshares
      exact ⟨s.width, s.height, inferMissing_both real hwidth hheight, relative_of_share? hw,
        relative_of_share? hh⟩
    | false =>
      rw [hwidth, hheight] at hshares
      obtain ⟨w', hw, hshares⟩ := Option.bind_eq_some_iff.1 hshares
      obtain ⟨h', hh, hshares⟩ := Option.bind_eq_some_iff.1 hshares
      cases hshares
      obtain ⟨t, ht, hrel⟩ := relative_of_inferredShare? hw hh
      exact ⟨s.width, t, inferMissing_height hwidth hheight ht, relative_of_share? hw, hrel⟩
  | false =>
    cases hheight : s.height.isSpecified with
    | true =>
      rw [hwidth, hheight] at hshares
      obtain ⟨h', hh, hshares⟩ := Option.bind_eq_some_iff.1 hshares
      obtain ⟨w', hw, hshares⟩ := Option.bind_eq_some_iff.1 hshares
      cases hshares
      obtain ⟨t, ht, hrel⟩ := relative_of_inferredShare? hh hw
      exact ⟨t, s.height, inferMissing_width hwidth hheight ht, hrel, relative_of_share? hh⟩
    | false =>
      rw [hwidth, hheight] at hshares
      cases hshares

/-- Scaling both axes gives them the chosen share as their factor. -/
theorem scaleBoth_of_shares? {s : SizeSpec} {real : RealDimension} {w h : Number} {f : Binary64}
    (c : Choice) (hshares : shares? s.width s.height real = some (w, h))
    (hf : (c.pick h w).toBinary64 = .ok f) :
    scaleBoth c s real = .ok (s.withSize (.factor f) (.factor f)) := by
  obtain ⟨width, height, ht, hw, hh⟩ := inferMissing_of_shares? hshares
  have hfactor : ((c.of (.ofNumber h) (.ofNumber w) >>= Value.toBinary64).mapError Failure.fault) =
      .ok f := by
    rw [of_ofNumber]
    show ((Value.ofNumber (c.pick h w)).toBinary64).mapError Failure.fault = _
    rw [toBinary64_ofNumber, hf]
    rfl
  unfold scaleBoth
  rw [ht]
  show (do
    let h ← relative height (.ofNumber real.height)
    let w ← relative width (.ofNumber real.width)
    let f ← (c.of h w >>= Value.toBinary64).mapError Failure.fault
    return (s.withSize width height).withSize (.factor f) (.factor f)) = _
  rw [hw, hh]
  show (do
    let f ← (c.of (.ofNumber h) (.ofNumber w) >>= Value.toBinary64).mapError Failure.fault
    return (s.withSize width height).withSize (.factor f) (.factor f)) = _
  rw [hfactor]
  rfl

/-! ## Readable axes -/

theorem exists_share? {d : Dimension} {axis : Number} (hd : d.Readable) (hunit : d.isConcrete = true)
    (pos : axis.isNonpositive = false) (hd : axis.HasDouble) :
    ∃ v, d.share? axis = some v ∧ v.HasDouble := by
  obtain ⟨unit, value⟩ := d
  cases unit with
  | factor =>
    obtain ⟨v, hvalue, hv⟩ := hd
    refine ⟨v, ?_, hv⟩
    unfold Dimension.share?
    dsimp only at hvalue ⊢
    rw [hvalue, number?_ofNumber]
  | pixel =>
    obtain ⟨v, hvalue, hv⟩ := hd
    obtain ⟨q, hq⟩ := Number.exists_div hv pos hd
    refine ⟨.float q, ?_, Number.hasDouble_float q⟩
    unfold Dimension.share?
    dsimp only at hvalue ⊢
    rw [hvalue, number?_ofNumber]
    dsimp only
    rw [hq]
    rfl
  | unspecified => cases hunit
  | invalid => cases hunit

theorem inferredShare?_eq {share axis p : Number} {q : Binary64} (hp : share.mul axis = .ok p)
    (hq : p.div axis = .ok q) : inferredShare? share axis = some (.float q) := by
  unfold inferredShare?
  rw [hp]
  show ((p.div axis).toOption.map Number.float) = _
  rw [hq]
  rfl

theorem exists_inferredShare? {share axis : Number} (hs : share.HasDouble)
    (pos : axis.isNonpositive = false) (hd : axis.HasDouble) :
    ∃ v, inferredShare? share axis = some v ∧ v.HasDouble := by
  obtain ⟨p, q, hp, hq⟩ := Number.exists_mul_div hs pos hd
  exact ⟨.float q, inferredShare?_eq hp hq, Number.hasDouble_float q⟩

/-- Readable axes of which one is given have shares, and the shares have doubles. -/
theorem exists_shares {width height : Dimension} {real : RealDimension} (hw : width.Readable)
    (hh : height.Readable) (hwidth : width.unit ≠ .invalid) (hheight : height.unit ≠ .invalid)
    (hgiven : (width.isSpecified || height.isSpecified) = true)
    (axisw : real.width.HasDouble) (axish : real.height.HasDouble) :
    ∃ w h, shares? width height real = some (w, h) ∧ w.HasDouble ∧ h.HasDouble := by
  unfold shares?
  cases hsw : width.isSpecified with
  | true =>
    obtain ⟨w, hshare, hdw⟩ := exists_share? hw (Dimension.isConcrete_of_given hwidth hsw) real.width_pos axisw
    cases hsh : height.isSpecified with
    | true =>
      obtain ⟨h, hshare', hdh⟩ := exists_share? hh (Dimension.isConcrete_of_given hheight hsh) real.height_pos axish
      exact ⟨w, h, by simp [hshare, hshare'], hdw, hdh⟩
    | false =>
      obtain ⟨h, hshare', hdh⟩ := exists_inferredShare? hdw real.height_pos axish
      exact ⟨w, h, by simp [hshare, hshare'], hdw, hdh⟩
  | false =>
    have hsh : height.isSpecified = true := by simpa [hsw] using hgiven
    obtain ⟨h, hshare, hdh⟩ := exists_share? hh (Dimension.isConcrete_of_given hheight hsh) real.height_pos axish
    obtain ⟨w, hshare', hdw⟩ := exists_inferredShare? hdh real.width_pos axisw
    exact ⟨w, h, by simp [hsh, hshare, hshare'], hdw, hdh⟩

end Scaling

end ImageSizing
