import ImageSizing.Scaling

/-!
# What policies leave alone

A policy changes the axes of a size and nothing else: the queue, the snapshot and the extras
of what it returns are those that it was given (`apply_axes`).
-/

namespace ImageSizing.Scaling

/-- A size that differs from another one in its axes at most. -/
def SameButAxes (s t : SizeSpec) : Prop := ∃ width height, t = s.withSize width height

theorem SameButAxes.trans {s t u : SizeSpec} (h : SameButAxes s t) (h' : SameButAxes t u) :
    SameButAxes s u := by
  obtain ⟨w, h, rfl⟩ := h
  obtain ⟨w', h', rfl⟩ := h'
  exact ⟨w', h', rfl⟩

theorem dropInvalidHeight_eq_ok {s t : SizeSpec} (h : (dropInvalidHeight s).result = .ok t) :
    t = s.withSize s.width (if s.height.unit = .invalid then .unspecified else s.height) := by
  unfold dropInvalidHeight at h
  by_cases hh : s.height.unit = .invalid
  · rw [if_pos hh] at h ⊢
    obtain ⟨_, _, h⟩ := Logged.bind_result_eq_ok_iff.1 h
    obtain ⟨_, _, h⟩ := Logged.bind_result_eq_ok_iff.1 h
    cases h
    rfl
  · rw [if_neg hh] at h ⊢
    cases h
    rfl

/-- What validation lets pass, and what it makes of it. -/
theorem validate_eq_ok {s t : SizeSpec} (h : (validate s).result = .ok t) :
    s.width.unit ≠ .invalid ∧ (t.width.isSpecified || t.height.isSpecified) = true ∧
      t = s.withSize s.width (if s.height.unit = .invalid then .unspecified else s.height) := by
  unfold validate at h
  by_cases hw : s.width.unit = .invalid
  · rw [if_pos hw] at h
    obtain ⟨_, _, h⟩ := Logged.bind_result_eq_ok_iff.1 h
    cases h
  · rw [if_neg hw] at h
    obtain ⟨u, hu, h⟩ := Logged.bind_result_eq_ok_iff.1 h
    by_cases hgiven : (u.width.isSpecified || u.height.isSpecified) = true
    · rw [if_pos hgiven] at h
      cases h
      exact ⟨hw, hgiven, dropInvalidHeight_eq_ok hu⟩
    · rw [if_neg hgiven] at h
      obtain ⟨_, _, h⟩ := Logged.bind_result_eq_ok_iff.1 h
      cases h

theorem validate_axes {s t : SizeSpec} (h : (validate s).result = .ok t) : SameButAxes s t :=
  ⟨_, _, (validate_eq_ok h).2.2⟩

/-- The two axes of an inferred size, one after the other. -/
theorem inferMissing_eq (s : SizeSpec) (real : RealDimension) :
    inferMissing s real =
      (if s.width.isSpecified = true then pure s.width
        else matching s.height real.height real.width) >>= fun width =>
      (if s.height.isSpecified = true then pure s.height
        else matching width real.width real.height) >>= fun height =>
      pure (s.withSize width height) := by
  unfold inferMissing
  cases s.width.isSpecified <;> cases s.height.isSpecified <;> rfl

theorem inferMissing_axes {s t : SizeSpec} {real : RealDimension}
    (h : inferMissing s real = .ok t) : SameButAxes s t := by
  rw [inferMissing_eq] at h
  obtain ⟨width, _, h⟩ := bind_eq_ok h
  obtain ⟨height, _, h⟩ := bind_eq_ok h
  cases h
  exact ⟨width, height, rfl⟩

theorem scaleBoth_axes {c : Choice} {s t : SizeSpec} {real : RealDimension}
    (h : scaleBoth c s real = .ok t) : SameButAxes s t := by
  unfold scaleBoth at h
  obtain ⟨u, hu, h⟩ := bind_eq_ok h
  obtain ⟨_, _, h⟩ := bind_eq_ok h
  obtain ⟨_, _, h⟩ := bind_eq_ok h
  obtain ⟨f, _, h⟩ := bind_eq_ok h
  cases h
  exact (inferMissing_axes hu).trans ⟨_, _, rfl⟩

/-- A policy changes the axes of a size at most. -/
theorem apply_axes {p : Policy} {s t : SizeSpec} {real : RealDimension}
    (h : (p.apply s real).result = .ok t) : SameButAxes s t := by
  have hscale : ∀ c : Choice,
      (validate s >>= fun u => Logged.ofExcept (scaleBoth c u real)).result = .ok t →
      SameButAxes s t := by
    intro c h
    obtain ⟨u, hu, h⟩ := Logged.bind_result_eq_ok_iff.1 h
    cases hc : scaleBoth c u real with
    | error f =>
      rw [hc] at h
      cases h
    | ok v =>
      rw [hc] at h
      cases h
      exact (validate_axes hu).trans (scaleBoth_axes hc)
  cases p with
  | contain => exact hscale .smaller h
  | cover => exact hscale .larger h
  | check => exact validate_axes h
  | exact =>
    obtain ⟨u, hu, h⟩ := Logged.bind_result_eq_ok_iff.1 h
    by_cases hboth : (u.width.isSpecified && u.height.isSpecified) = true
    · rw [if_pos hboth] at h
      cases h
      exact validate_axes hu
    · rw [if_neg hboth] at h
      obtain ⟨_, _, h⟩ := Logged.bind_result_eq_ok_iff.1 h
      cases h

end ImageSizing.Scaling
