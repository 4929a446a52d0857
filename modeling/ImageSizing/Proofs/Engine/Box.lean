import ImageSizing.Proofs.Dimension.Integers
import ImageSizing.Proofs.Engine.BuiltIn
import ImageSizing.Proofs.Engine.Containment
import ImageSizing.Proofs.Scaling.WholeAxes
import ImageSizing.Proofs.Value.Keys

/-!
# The box of a size

A size with whole axes asks for a box.  `contain` makes the picture fit into the box and
`cover` makes it fill the box, and both leave no room on at least one axis; where only one
axis is given the picture gets exactly that.  All of this is about the pixels at the end, four
roundings in double precision after the axes of the box (`Proofs.Scaling.WholeAxes`).
-/

namespace ImageSizing

namespace Dimension

/-- A whole number of pixels, or an axis that was left out. -/
def ofPixels? : Option ℕ → Dimension
  | some n => .pixel (.int n)
  | none => .unspecified

theorem ofPixels?_valid (n : Option ℕ) : (ofPixels? n).unit ≠ .invalid := by
  cases n <;> exact nofun

end Dimension

namespace Size

def axisEntry (key : String) (n : Option ℕ) : Mapping :=
  (n.map fun m : ℕ => (Value.str key, Value.int m)).toList

/-- The size of a box with whole axes, and the policy that scales a picture for it. -/
def box (c : Scaling.Choice) (width height : Option ℕ) : Mapping :=
  axisEntry "width" width ++ axisEntry "height" height ++ [(.str "function", .str c.policy.name)]

variable {cfg : EngineConfig} {c : Scaling.Choice} {width height : Option ℕ}

def boxSpec (c : Scaling.Choice) (width height : Option ℕ) : SizeSpec :=
  ⟨.ofPixels? width, .ofPixels? height, [.ofPolicy c.policy], box c width height, []⟩

theorem isPlain_box : (Value.map (box c width height)).isPlain = true := by
  cases width <;> cases height <;> rfl

theorem printable_natCast {n : ℕ} (hn : n < 2 ^ 31) : Numeral.printable n = true := by
  have hbig : (2 : ℕ) ^ 31 ≤ Nat.pow 10 Numeral.digitLimit := by decide +kernel
  rw [Numeral.printable_iff, Int.natAbs_natCast]
  omega

theorem printable_box (hw : ∀ n ∈ width, n < 2 ^ 31) (hh : ∀ n ∈ height, n < 2 ^ 31) :
    (Value.map (box c width height)).printable = true := by
  refine Value.printableEntries_iff.2 fun e he => ?_
  rcases List.mem_append.1 he with he | he
  · rcases List.mem_append.1 he with he | he
    · obtain ⟨n, hn, rfl⟩ := Option.map_eq_some_iff.1 (Option.mem_toList.1 he)
      exact ⟨rfl, printable_natCast (hw n hn)⟩
    · obtain ⟨n, hn, rfl⟩ := Option.map_eq_some_iff.1 (Option.mem_toList.1 he)
      exact ⟨rfl, printable_natCast (hh n hn)⟩
  · cases List.mem_singleton.1 he
    exact ⟨rfl, rfl⟩

theorem read_axis (hbare : "" ∈ cfg.grammar.pixelSuffixes) {n : Option ℕ}
    (hn : ∀ m ∈ n, m < 2 ^ 31) :
    Dimension.read cfg.grammar (n.elim .nothing fun m => .int m) = .ok (.ofPixels? n) := by
  cases n with
  | none => rfl
  | some m =>
    have hm : m < 2 ^ 31 := hn m rfl
    exact Dimension.read_natCast hbare (Number.isFinite_natCast (by omega)) (printable_natCast hm)

/-- A box is normalized without a word. -/
theorem normalize_box (hbare : "" ∈ cfg.grammar.pixelSuffixes) (r : Registry)
    (hw : ∀ n ∈ width, n < 2 ^ 31) (hh : ∀ n ∈ height, n < 2 ^ 31) :
    normalize cfg r (.map (box c width height)) = pure (boxSpec c width height) := by
  have hwidth : (box c width height).get "width" = width.elim .nothing fun m => .int m := by
    cases width <;> cases height <;> rfl
  have hheight : (box c width height).get "height" = height.elim .nothing fun m => .int m := by
    cases width <;> cases height <;> rfl
  refine normalize_policy (p := c.policy) ?_ ?_ ?_ ?_ ?_
  · cases width <;> cases height <;> rfl
  · rw [hwidth, read_axis hbare hw]
  · rw [hheight, read_axis hbare hh]
  · cases width <;> cases height <;> rfl
  · cases width <;> cases height <;> rfl

end Size

namespace Engine

open Binary64 Scaling

section Box

variable {e : Engine} {c : Choice} {width height : Option ℕ} {real : RealDimension}

/-- A box that gives an axis is not rejected. -/
theorem rejection?_box
    (hgiven : ((Dimension.ofPixels? width).isSpecified || (Dimension.ofPixels? height).isSpecified) = true) :
    (Size.boxSpec c width height).rejection? [c.policy] = none := by
  have hexact : Policy.exactFirst [c.policy] = false := by cases c <;> rfl
  show (if (Dimension.ofPixels? width).unit = .invalid then _ else
    if ((Dimension.ofPixels? width).isSpecified ||
      (Dimension.ofPixels? height).orUnspecified.isSpecified) = false then _ else
    if (Policy.exactFirst [c.policy] && _) = true then _ else none) = _
  rw [if_neg (Dimension.ofPixels?_valid width),
    orUnspecified_of_valid (Dimension.ofPixels?_valid height), hgiven, hexact, if_neg (by decide),
    Bool.false_and, if_neg (by decide)]

/-- Nor is it warned about. -/
theorem policyWarnings_box : (Size.boxSpec c width height).policyWarnings = [] := by
  show (if (Dimension.ofPixels? width).unit = .invalid then [] else
    (Size.boxSpec c width height).heightWarning) = []
  rw [if_neg (Dimension.ofPixels?_valid width)]
  exact if_neg (Dimension.ofPixels?_valid height)

/-- A box is calculated by its policy alone, and that gives both axes one factor. -/
theorem calculate_box (hbare : "" ∈ e.config.grammar.pixelSuffixes) (hw : ∀ n ∈ width, n < 2 ^ 31)
    (hh : ∀ n ∈ height, n < 2 ^ 31)
    (hgiven : ((Dimension.ofPixels? width).isSpecified || (Dimension.ofPixels? height).isSpecified) = true)
    (finw : real.width.isFinite = true) (finh : real.height.isFinite = true) {w h : Number}
    {f : Binary64}
    (hshares : shares? (.ofPixels? width) (.ofPixels? height) real = some (w, h))
    (hf : c.pick h w = .float f) :
    e.calculate (.map (Size.box c width height)) real =
      pure ⟨.factor f, .factor f, [], Size.box c width height, []⟩ := by
  have hnormal := Size.normalize_box (c := c) hbare e.registry hw hh
  have hready : (Size.boxSpec c width height).Ready :=
    Size.ready_of_normalize Size.isPlain_box (Size.printable_box hw hh) (by rw [hnormal]; rfl)
  have hq : RunsOnly (Size.boxSpec c width height).queue [c.policy] := rfl
  obtain ⟨w', h', factor, hshares', hfactor, hdrain⟩ :=
    @drain_of_no_rejection e (e.resolveAt e.nesting) real _ _ _ hready hq (by simp)
      e.config.maxSteps_pos finw finh (rejection?_box hgiven)
  have hpair : (w', h') = (w, h) := by
    have hsame : shares? (.ofPixels? width) (.ofPixels? height) real = some (w', h') := by
      rw [← orUnspecified_of_valid (Dimension.ofPixels?_valid height)]
      exact hshares'
    exact Option.some.inj (hsame.symm.trans hshares)
  cases hpair
  have hchosen : factor c = f := by
    have hc := hfactor c
    rw [hf] at hc
    exact (Except.ok.inj hc).symm
  have hpassed : passed [c.policy] (Size.boxSpec c width height).withoutInvalid factor =
      ⟨.factor f, .factor f, [], Size.box c width height, []⟩ := by
    rw [← hchosen]
    cases c <;> rfl
  show (e.normalize (.map (Size.box c width height)) >>= fun s =>
    e.drain (e.resolveAt e.nesting) real s.original e.config.maxSteps.steps s) = _
  unfold normalize
  rw [hnormal, Logged.pure_bind, hdrain, policyWarnings_box, hpassed]
  rfl

/-- Axes that come to finite numbers of pixels are rounded. -/
theorem pixelsOf_numbers {s : SizeSpec} {a b : Number} {m n : ℕ}
    (hconcrete : (s.width.isConcrete && s.height.isConcrete) = true)
    (hw : absolute s.width (.ofNumber real.width) = .ok (.ofNumber a)) (ha : a.isFinite = true)
    (hm : a.roundHalfUp = .ok (m : ℤ))
    (hh : absolute s.height (.ofNumber real.height) = .ok (.ofNumber b)) (hb : b.isFinite = true)
    (hn : b.roundHalfUp = .ok (n : ℤ)) : pixelsOf s real = pure ⟨m, n⟩ := by
  have hfinite : bothFinite (.ofNumber a) (.ofNumber b) = .ok true := by
    rw [bothFinite_ofNumber, ha, hb]
    rfl
  have hround : ∀ {v : Number} {k : ℤ}, v.roundHalfUp = .ok k →
      Logged.ofFaulty (Value.ofNumber v).roundHalfUp = pure k := by
    intro v k hk
    rw [Value.roundHalfUp_ofNumber, hk]
    rfl
  unfold pixelsOf
  rw [if_pos hconcrete, hw, hh]
  show (Logged.ofFaulty (bothFinite (.ofNumber a) (.ofNumber b)) >>= _) = _
  rw [hfinite]
  show (Logged.ofFaulty (Value.ofNumber a).roundHalfUp >>= fun w =>
    Logged.ofFaulty (Value.ofNumber b).roundHalfUp >>= fun h => toPixelSize w h) = _
  rw [hround hm, hround hn]
  show toPixelSize m n = _
  unfold toPixelSize
  rw [if_neg (by omega), Int.toNat_natCast, Int.toNat_natCast]

/-- The pixels of a factor on both axes. -/
theorem pixelsOf_factor {f p q : Binary64} {m n : ℕ} (original extras : Mapping)
    (hw : (Number.float f).mul real.width = .ok (.float p)) (hp : p.isFinite = true)
    (hm : (Number.float p).roundHalfUp = .ok (m : ℤ))
    (hh : (Number.float f).mul real.height = .ok (.float q)) (hq : q.isFinite = true)
    (hn : (Number.float q).roundHalfUp = .ok (n : ℤ)) :
    pixelsOf ⟨.factor f, .factor f, [], original, extras⟩ real = pure ⟨m, n⟩ := by
  have habsolute : ∀ {axis : Number} {x : Binary64}, (Number.float f).mul axis = .ok (.float x) →
      absolute (.factor f) (.ofNumber axis) = .ok (.ofNumber (.float x)) := by
    intro axis x hmul
    show ((Value.ofNumber (.float f)).times (.ofNumber axis)).mapError Failure.fault = _
    rw [times_eq hmul]
    rfl
  exact pixelsOf_numbers rfl (habsolute hw) hp hm (habsolute hh) hq hn

end Box

end Engine

/-- A picture with whole axes below 2³¹. -/
structure RealDimension.Whole (real : RealDimension) (W H : ℕ) : Prop where
  width_eq : real.width = .int W
  height_eq : real.height = .int H
  width_lt : W < 2 ^ 31
  height_lt : H < 2 ^ 31

namespace RealDimension.Whole

variable {real : RealDimension} {W H : ℕ}

theorem pos_of_int {axis : Number} {n : ℕ} (h : axis.isNonpositive = false) (hn : axis = .int n) :
    0 < n := by
  rw [hn] at h
  have hpos := Number.int_pos h
  omega

theorem width_pos (h : real.Whole W H) : 0 < W := pos_of_int real.width_pos h.width_eq

theorem height_pos (h : real.Whole W H) : 0 < H := pos_of_int real.height_pos h.height_eq

theorem width_finite (h : real.Whole W H) : real.width.isFinite = true := by
  have hlt := h.width_lt
  rw [h.width_eq]
  exact Number.isFinite_natCast (by omega)

theorem height_finite (h : real.Whole W H) : real.height.isFinite = true := by
  have hlt := h.height_lt
  rw [h.height_eq]
  exact Number.isFinite_natCast (by omega)

end RealDimension.Whole

namespace Engine

open Binary64 Scaling

section Pixels

variable {e : Engine} {real : RealDimension} {w h W H : ℕ}

/-- A box with moderate shares has pixels, those that the chosen share comes to on each axis. -/
theorem exists_toPixels_box (hbare : "" ∈ e.config.grammar.pixelSuffixes) {width height : Option ℕ}
    (hw : ∀ n ∈ width, n < 2 ^ 31) (hh : ∀ n ∈ height, n < 2 ^ 31)
    (hgiven : ((Dimension.ofPixels? width).isSpecified || (Dimension.ofPixels? height).isSpecified) = true)
    (hreal : real.Whole W H) {x y : Binary64} {a b : ℚ}
    (hshares : shares? (.ofPixels? width) (.ofPixels? height) real = some (.float x, .float y))
    (hx : HasValue x a) (hy : HasValue y b) (ha : Moderate 127 a) (hb : Moderate 127 b) (c : Choice) :
    ∃ p : PixelSize, e.toPixels (.map (Size.box c width height)) real = pure p ∧
      RoundsTo (c.pickValue b a * W) p.width ∧ RoundsTo (c.pickValue b a * H) p.height := by
  obtain ⟨f, hf, hvalue⟩ := exists_pick_float c hy hx
  have hmoderate : Moderate 127 (c.pickValue b a) := by
    rcases c.pickValue_eq b a with h | h
    · rw [h]
      exact hb
    · rw [h]
      exact ha
  obtain ⟨p, m, hmul, hfin, hround, hm⟩ := exists_pixels hvalue hmoderate (le_refl 127) hreal.width_lt
  obtain ⟨q, n, hmul', hfin', hround', hn⟩ :=
    exists_pixels hvalue hmoderate (le_refl 127) hreal.height_lt
  refine ⟨⟨m, n⟩, ?_, hm, hn⟩
  unfold toPixels
  rw [calculate_box hbare hw hh hgiven hreal.width_finite hreal.height_finite hshares hf,
    Logged.pure_bind]
  rw [← hreal.width_eq] at hmul
  rw [← hreal.height_eq] at hmul'
  exact pixelsOf_factor _ _ hmul hfin hround hmul' hfin' hround'

/-- Both axes given: the chosen share is that of the height or that of the width. -/
theorem exists_toPixels_both (hbare : "" ∈ e.config.grammar.pixelSuffixes) (hw : w < 2 ^ 31)
    (hh : h < 2 ^ 31) (hreal : real.Whole W H) :
    ∃ a b, Near 1 (w : ℚ) (a * W) ∧ Near 1 (h : ℚ) (b * H) ∧ ∀ c : Choice,
      ∃ p : PixelSize, e.toPixels (.map (Size.box c (some w) (some h))) real = pure p ∧
        RoundsTo (c.pickValue b a * W) p.width ∧ RoundsTo (c.pickValue b a * H) p.height := by
  obtain ⟨x, a, hx, hxa, ha, hmoda⟩ := exists_share_natCast hw hreal.width_pos hreal.width_lt
  obtain ⟨y, b, hy, hyb, hb, hmodb⟩ := exists_share_natCast hh hreal.height_pos hreal.height_lt
  rw [← hreal.width_eq] at hx
  rw [← hreal.height_eq] at hy
  have hshares : shares? (.ofPixels? (some w)) (.ofPixels? (some h)) real =
      some (.float x, .float y) := by
    show ((Dimension.pixel (.int w)).share? real.width >>= fun w' =>
      (Dimension.pixel (.int h)).share? real.height >>= fun h' => some (w', h')) = _
    rw [hx, hy]
    rfl
  refine ⟨a, b, near_pixels hreal.width_pos ha, near_pixels hreal.height_pos hb, fun c => ?_⟩
  exact exists_toPixels_box hbare (by simpa using hw) (by simpa using hh) rfl hreal hshares hxa hyb
    (hmoda.mono (by omega)) (hmodb.mono (by omega)) c

/-- The width given alone: whichever share is chosen, it is three roundings away at most. -/
theorem exists_toPixels_width (hbare : "" ∈ e.config.grammar.pixelSuffixes) (hw : w < 2 ^ 31)
    (hreal : real.Whole W H) (c : Choice) :
    ∃ p : PixelSize, e.toPixels (.map (Size.box c (some w) none)) real = pure p ∧ p.width = w := by
  obtain ⟨x, a, hx, hxa, ha, hmoda⟩ := exists_share_natCast hw hreal.width_pos hreal.width_lt
  have hratio := moderate_ratio hw hreal.width_lt
  obtain ⟨y, b, hy, hyb, hb, hmodb⟩ :=
    exists_inferredShare_natCast hratio hxa ha hreal.height_pos hreal.height_lt
  rw [← hreal.width_eq] at hx
  rw [← hreal.height_eq] at hy
  have hshares : shares? (.ofPixels? (some w)) (.ofPixels? none) real = some (.float x, .float y) := by
    show ((Dimension.pixel (.int w)).share? real.width >>= fun w' =>
      inferredShare? w' real.height >>= fun h' => some (w', h')) = _
    rw [hx]
    show (inferredShare? (.float x) real.height >>= fun h' => some (Number.float x, h')) = _
    rw [hy]
    rfl
  have hchosen : Near 3 ((w : ℚ) / W) (c.pickValue b a) :=
    c.pickValue_near hb (ha.mono hratio.nonneg (by omega))
  obtain ⟨p, hp, hwidth, _⟩ := exists_toPixels_box hbare (by simpa using hw) (by simp) rfl hreal hshares hxa
    hyb (hmoda.mono (by omega)) hmodb c
  exact ⟨p, hp, hwidth.eq_of_near hw (near_pixels hreal.width_pos hchosen)⟩

/-- The height given alone. -/
theorem exists_toPixels_height (hbare : "" ∈ e.config.grammar.pixelSuffixes) (hh : h < 2 ^ 31)
    (hreal : real.Whole W H) (c : Choice) :
    ∃ p : PixelSize, e.toPixels (.map (Size.box c none (some h))) real = pure p ∧ p.height = h := by
  obtain ⟨y, b, hy, hyb, hb, hmodb⟩ := exists_share_natCast hh hreal.height_pos hreal.height_lt
  have hratio := moderate_ratio hh hreal.height_lt
  obtain ⟨x, a, hx, hxa, ha, hmoda⟩ :=
    exists_inferredShare_natCast hratio hyb hb hreal.width_pos hreal.width_lt
  rw [← hreal.width_eq] at hx
  rw [← hreal.height_eq] at hy
  have hshares : shares? (.ofPixels? none) (.ofPixels? (some h)) real = some (.float x, .float y) := by
    show ((Dimension.pixel (.int h)).share? real.height >>= fun h' =>
      inferredShare? h' real.width >>= fun w' => some (w', h')) = _
    rw [hy]
    show (inferredShare? (.float y) real.width >>= fun w' => some (w', Number.float y)) = _
    rw [hx]
    rfl
  have hchosen : Near 3 ((h : ℚ) / H) (c.pickValue b a) :=
    c.pickValue_near (hb.mono hratio.nonneg (by omega)) ha
  obtain ⟨p, hp, _, hheight⟩ := exists_toPixels_box hbare (by simp) (by simpa using hh) rfl hreal hshares hxa
    hyb hmoda (hmodb.mono (by omega)) c
  exact ⟨p, hp, hheight.eq_of_near hh (near_pixels hreal.height_pos hchosen)⟩

/-- A picture is contained in its box or covers it, and in both cases one axis at least is that of
the box; an axis that is given alone comes out exactly. -/
theorem toPixels_box (hbare : "" ∈ e.config.grammar.pixelSuffixes) (hw : w < 2 ^ 31)
    (hh : h < 2 ^ 31) (hreal : real.Whole W H) :
    (∃ p : PixelSize, e.toPixels (.map (Size.box .smaller (some w) (some h))) real = pure p ∧
      p.width ≤ w ∧ p.height ≤ h ∧ (p.width = w ∨ p.height = h)) ∧
    (∃ p : PixelSize, e.toPixels (.map (Size.box .larger (some w) (some h))) real = pure p ∧
      w ≤ p.width ∧ h ≤ p.height ∧ (p.width = w ∨ p.height = h)) ∧
    ∀ c : Choice,
      (∃ p : PixelSize, e.toPixels (.map (Size.box c (some w) none)) real = pure p ∧ p.width = w) ∧
      ∃ p : PixelSize, e.toPixels (.map (Size.box c none (some h))) real = pure p ∧ p.height = h := by
  obtain ⟨a, b, ha, hb, hboth⟩ := exists_toPixels_both hbare hw hh hreal
  have ha3 : Near 3 (w : ℚ) (a * W) := ha.mono (Nat.cast_nonneg w) (by omega)
  have hb3 : Near 3 (h : ℚ) (b * H) := hb.mono (Nat.cast_nonneg h) (by omega)
  have hW : (0 : ℚ) ≤ W := Nat.cast_nonneg W
  have hH : (0 : ℚ) ≤ H := Nat.cast_nonneg H
  refine ⟨?_, ?_, fun c =>
    ⟨exists_toPixels_width hbare hw hreal c, exists_toPixels_height hbare hh hreal c⟩⟩
  · obtain ⟨p, hp, hwidth, hheight⟩ := hboth .smaller
    have hlew : p.width ≤ w :=
      hwidth.le hw (le_trans (mul_le_mul_of_nonneg_right (min_le_right b a) hW) ha3.upper)
    have hleh : p.height ≤ h :=
      hheight.le hh (le_trans (mul_le_mul_of_nonneg_right (min_le_left b a) hH) hb3.upper)
    refine ⟨p, hp, hlew, hleh, ?_⟩
    rcases Choice.smaller.pickValue_eq b a with hpick | hpick
    · rw [hpick] at hheight
      exact .inr (hheight.eq_of_near hh hb3)
    · rw [hpick] at hwidth
      exact .inl (hwidth.eq_of_near hw ha3)
  · obtain ⟨p, hp, hwidth, hheight⟩ := hboth .larger
    have hgew : w ≤ p.width :=
      hwidth.ge hw (le_trans ha3.lower (mul_le_mul_of_nonneg_right (le_max_right b a) hW))
    have hgeh : h ≤ p.height :=
      hheight.ge hh (le_trans hb3.lower (mul_le_mul_of_nonneg_right (le_max_left b a) hH))
    refine ⟨p, hp, hgew, hgeh, ?_⟩
    rcases Choice.larger.pickValue_eq b a with hpick | hpick
    · rw [hpick] at hheight
      exact .inr (hheight.eq_of_near hh hb3)
    · rw [hpick] at hwidth
      exact .inl (hwidth.eq_of_near hw ha3)

/-- A box of ten by five pixels for a picture of twenty by forty. -/
theorem toPixels_box_tenByFive :
    (∃ p : PixelSize, Engine.toPixels {} (.map (Size.box .smaller (some 10) (some 5))) twentyByForty =
      pure p ∧ p.width ≤ 10 ∧ p.height ≤ 5 ∧ (p.width = 10 ∨ p.height = 5)) ∧
    (∃ p : PixelSize, Engine.toPixels {} (.map (Size.box .larger (some 10) (some 5))) twentyByForty =
      pure p ∧ 10 ≤ p.width ∧ 5 ≤ p.height ∧ (p.width = 10 ∨ p.height = 5)) ∧
    ∀ c : Choice,
      (∃ p : PixelSize, Engine.toPixels {} (.map (Size.box c (some 10) none)) twentyByForty = pure p ∧
        p.width = 10) ∧
      ∃ p : PixelSize, Engine.toPixels {} (.map (Size.box c none (some 5))) twentyByForty = pure p ∧
        p.height = 5 :=
  toPixels_box (by decide) (by decide) (by decide) ⟨rfl, rfl, by decide, by decide⟩

end Pixels

end Engine

end ImageSizing
