import ImageSizing.Proofs.Scaling.Frame
import ImageSizing.Proofs.Logged.Reported

/-!
# Conversions of concrete dimensions

`relative` and `absolute` fail with a sizing error on dimensions that are neither pixels nor
factors, and write nothing to a log.  They are never asked to: validation lets no invalid
axis pass and leaves at least one axis that is given, the missing axis is inferred from that
one, and only then both are converted.  So a policy fails in validation, with a line in the
log, or with a fault.
-/

namespace ImageSizing

theorem Dimension.isConcrete_of_given {d : Dimension} (hvalid : d.unit ≠ .invalid)
    (hgiven : d.isSpecified = true) : d.isConcrete = true := by
  obtain ⟨unit, value⟩ := d
  cases unit with
  | pixel => rfl
  | factor => rfl
  | unspecified => cases hgiven
  | invalid => exact absurd rfl hvalid

theorem Dimension.isSpecified_eq_false_iff (d : Dimension) :
    d.isSpecified = false ↔ d.unit = .unspecified := by
  unfold isSpecified
  exact bne_eq_false_iff_eq

/-- Pixels and factors are valid and given. -/
theorem Dimension.given_of_isConcrete {d : Dimension} (h : d.isConcrete = true) :
    d.unit ≠ .invalid ∧ d.isSpecified = true := by
  obtain ⟨unit, value⟩ := d
  cases unit with
  | pixel => exact ⟨nofun, rfl⟩
  | factor => exact ⟨nofun, rfl⟩
  | unspecified => cases h
  | invalid => cases h

/-- A size that the axes can be calculated from: no invalid axis, and at least one that is given. -/
structure SizeSpec.Valid (s : SizeSpec) : Prop where
  width_valid : s.width.unit ≠ .invalid
  height_valid : s.height.unit ≠ .invalid
  given : (s.width.isSpecified || s.height.isSpecified) = true

namespace Scaling

/-! ## Failures that are faults -/

/-- A calculation that does not fail with a sizing error. -/
def FaultsOnly {α : Type} (x : Except Failure α) : Prop := ∀ err, x ≠ .error (.sizing err)

theorem faultsOnly_ok {α : Type} (a : α) : FaultsOnly (.ok a) := nofun

theorem faultsOnly_mapError {α : Type} (x : Except Fault α) : FaultsOnly (x.mapError .fault) := by
  cases x with
  | ok a => exact nofun
  | error f => exact nofun

theorem FaultsOnly.bind {α β : Type} {x : Except Failure α} {f : α → Except Failure β}
    (hx : FaultsOnly x) (hf : ∀ a, x = .ok a → FaultsOnly (f a)) : FaultsOnly (x >>= f) := by
  cases x with
  | ok a => exact hf a rfl
  | error e =>
    intro err h
    cases h
    exact hx err rfl

theorem faultsOnly_relative {d : Dimension} (h : d.isConcrete = true) (axis : Value) :
    FaultsOnly (relative d axis) := by
  obtain ⟨unit, value⟩ := d
  cases unit with
  | pixel => exact faultsOnly_mapError _
  | factor => exact faultsOnly_ok _
  | unspecified => cases h
  | invalid => cases h

theorem faultsOnly_absolute {d : Dimension} (h : d.isConcrete = true) (axis : Value) :
    FaultsOnly (absolute d axis) := by
  obtain ⟨unit, value⟩ := d
  cases unit with
  | pixel => exact faultsOnly_ok _
  | factor => exact faultsOnly_mapError _
  | unspecified => cases h
  | invalid => cases h

theorem faultsOnly_matching {d : Dimension} (h : d.isConcrete = true) (axis other : Number) :
    FaultsOnly (matching d axis other) :=
  (faultsOnly_relative h _).bind fun _ _ => (faultsOnly_mapError _).bind fun _ _ => faultsOnly_ok _

theorem isConcrete_of_matching {d t : Dimension} {axis other : Number}
    (h : matching d axis other = .ok t) : t.isConcrete = true := by
  unfold matching at h
  obtain ⟨_, _, h⟩ := bind_eq_ok h
  obtain ⟨_, _, h⟩ := bind_eq_ok h
  cases h
  rfl

/-! ## Valid sizes -/

theorem valid_of_validate {s t : SizeSpec} (h : (validate s).result = .ok t) : t.Valid := by
  obtain ⟨hw, hgiven, rfl⟩ := validate_eq_ok h
  refine ⟨hw, ?_, hgiven⟩
  show (if s.height.unit = .invalid then Dimension.unspecified else s.height).unit ≠ .invalid
  split
  · exact nofun
  · assumption

/-- Validation has nothing to say about a valid size. -/
theorem validate_of_valid {s : SizeSpec} (hs : s.Valid) : validate s = pure s := by
  have hdrop : dropInvalidHeight s = pure s := if_neg hs.height_valid
  unfold validate
  rw [if_neg hs.width_valid, hdrop, Logged.pure_bind, if_pos hs.given]

/-- The axis that a missing one is inferred from can be converted. -/
theorem faultsOnly_inferMissing {s : SizeSpec} (hs : s.Valid) (real : RealDimension) :
    FaultsOnly (inferMissing s real) := by
  rw [inferMissing_eq]
  refine FaultsOnly.bind ?_ fun width hwidth => FaultsOnly.bind ?_ fun _ _ => faultsOnly_ok _
  · by_cases hw : s.width.isSpecified = true
    · rw [if_pos hw]
      exact faultsOnly_ok _
    · have hh : s.height.isSpecified = true := by simpa [hw] using hs.given
      rw [if_neg hw]
      exact faultsOnly_matching (Dimension.isConcrete_of_given hs.height_valid hh) _ _
  · by_cases hh : s.height.isSpecified = true
    · rw [if_pos hh]
      exact faultsOnly_ok _
    · have hw : s.width.isSpecified = true := by simpa [hh] using hs.given
      rw [if_pos hw] at hwidth
      cases hwidth
      rw [if_neg hh]
      exact faultsOnly_matching (Dimension.isConcrete_of_given hs.width_valid hw) _ _

/-- An axis that is given and valid, or inferred, can be converted. -/
theorem isConcrete_of_inferred {d e t : Dimension} {axis other : Number} (hd : d.unit ≠ .invalid)
    (h : (if d.isSpecified = true then pure d else matching e axis other) = .ok t) :
    t.isConcrete = true := by
  by_cases hgiven : d.isSpecified = true
  · rw [if_pos hgiven] at h
    cases h
    exact Dimension.isConcrete_of_given hd hgiven
  · rw [if_neg hgiven] at h
    exact isConcrete_of_matching h

theorem concrete_of_inferMissing {s t : SizeSpec} {real : RealDimension} (hs : s.Valid)
    (h : inferMissing s real = .ok t) : t.width.isConcrete = true ∧ t.height.isConcrete = true := by
  rw [inferMissing_eq] at h
  obtain ⟨width, hwidth, h⟩ := bind_eq_ok h
  obtain ⟨height, hheight, h⟩ := bind_eq_ok h
  cases h
  exact ⟨isConcrete_of_inferred hs.width_valid hwidth, isConcrete_of_inferred hs.height_valid hheight⟩

theorem faultsOnly_scaleBoth {s : SizeSpec} (hs : s.Valid) (choice : Choice) (real : RealDimension) :
    FaultsOnly (scaleBoth choice s real) := by
  refine (faultsOnly_inferMissing hs real).bind fun t ht => ?_
  obtain ⟨hwidth, hheight⟩ := concrete_of_inferMissing hs ht
  refine (faultsOnly_relative hheight _).bind fun _ _ => ?_
  refine (faultsOnly_relative hwidth _).bind fun _ _ => ?_
  exact (faultsOnly_mapError _).bind fun _ _ => faultsOnly_ok _

/-! ## Policies -/

theorem reports_described (s : SizeSpec) : (described s).Reports := Logged.reports_ofFaulty _

theorem reports_shown (s : SizeSpec) (key : String) : (shown s key).Reports := Logged.reports_ofFaulty _

theorem reports_dropInvalidHeight (s : SizeSpec) : (dropInvalidHeight s).Reports := by
  unfold dropInvalidHeight
  split
  · exact (reports_shown s _).bind fun _ _ => (Logged.reports_warn _).bind fun _ _ =>
      Logged.reports_pure _
  · exact Logged.reports_pure _

theorem reports_validate (s : SizeSpec) : (validate s).Reports := by
  unfold validate
  split
  · exact (reports_shown s _).bind fun _ _ => Logged.reports_fatal _
  · refine (reports_dropInvalidHeight s).bind fun t _ => ?_
    split
    · exact Logged.reports_pure t
    · exact (reports_described t).bind fun _ _ => Logged.reports_fatal _

/-- A policy reports its sizing errors; all of them are errors of validation or of `exact`. -/
theorem reports_apply (p : Policy) (s : SizeSpec) (real : RealDimension) :
    (p.apply s real).Reports := by
  have hscale : ∀ choice,
      (validate s >>= fun t => Logged.ofExcept (scaleBoth choice t real)).Reports := fun choice =>
    (reports_validate s).bind fun t ht =>
      Logged.reports_ofExcept (faultsOnly_scaleBoth (valid_of_validate ht) choice real)
  cases p with
  | contain => exact hscale .smaller
  | cover => exact hscale .larger
  | check => exact reports_validate s
  | exact =>
    refine (reports_validate s).bind fun t _ => ?_
    split
    · exact Logged.reports_pure t
    · exact (reports_described t).bind fun _ _ => Logged.reports_fatal _

end Scaling

end ImageSizing
