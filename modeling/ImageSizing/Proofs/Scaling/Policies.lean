import ImageSizing.Proofs.Scaling.Concrete
import ImageSizing.Proofs.Scaling.Shares
import ImageSizing.Proofs.Size.Plain

/-!
# The policies in closed form

What the policies do with a size that is ready for them (`SizeSpec.Ready`).  Validation
either rejects it, or drops an invalid height with one warning; a size that it accepts is
`Accepted`, and to such a size it has nothing more to say (`validate_accepted`).  On an
accepted size `contain` and `cover` always succeed (`scale_accepted`), and where both axes
are one and the same factor every policy leaves the size as it is (`apply_uniform`).
-/

namespace ImageSizing

/-- The dimension that validation puts in the place of a height. -/
def Dimension.orUnspecified (d : Dimension) : Dimension :=
  if d.unit = .invalid then .unspecified else d

namespace SizeSpec

/-- What validation says about the height. -/
def heightWarning (s : SizeSpec) : List LogEntry :=
  if s.height.unit = .invalid then
    [.warning ("Invalid height '" ++ (s.original.get "height").display ++ "' specified, ignoring it")]
  else []

/-- The size without an invalid height. -/
def withoutInvalid (s : SizeSpec) : SizeSpec := s.withSize s.width s.height.orUnspecified

def widthError (s : SizeSpec) : SizingError := .invalidWidth (s.original.get "width").display

def emptyError (s : SizeSpec) : SizingError := .nothingSpecified (Value.map s.original).description

/-- The error of a size with one axis where both are needed. -/
def exactError (s : SizeSpec) : SizingError := .exactNeedsBoth (Value.map s.original).description

/-- What validation accepts of the sizes that are ready for it. -/
structure Accepted (s : SizeSpec) : Prop extends s.Ready, s.Valid

theorem Ready.withQueue {s : SizeSpec} (h : s.Ready) (queue : List Step) : (s.withQueue queue).Ready :=
  ⟨h.width, h.height, h.original⟩

theorem Accepted.withQueue {s : SizeSpec} (h : s.Accepted) (queue : List Step) :
    (s.withQueue queue).Accepted :=
  ⟨h.toReady.withQueue queue, ⟨h.width_valid, h.height_valid, h.given⟩⟩

end SizeSpec

namespace Scaling

/-! ## Validation -/

theorem shown_printable {s : SizeSpec} (h : Value.printableEntries s.original = true) (key : String) :
    shown s key = pure (s.original.get key).display := by
  unfold shown Value.display?
  rw [if_pos (Value.printable_get h key)]
  rfl

theorem described_printable {s : SizeSpec} (h : Value.printableEntries s.original = true) :
    described s = pure (Value.map s.original).description := by
  have hprint : (Value.map s.original).withoutSnapshot.printable = true :=
    Value.printable_erase h "original"
  unfold described Value.description?
  rw [if_pos hprint]
  rfl

theorem dropInvalidHeight_ready {s : SizeSpec} (hs : s.Ready) :
    dropInvalidHeight s = ⟨s.heightWarning, .ok s.withoutInvalid⟩ := by
  unfold dropInvalidHeight SizeSpec.heightWarning SizeSpec.withoutInvalid Dimension.orUnspecified
  by_cases h : s.height.unit = .invalid
  · rw [if_pos h, if_pos h, if_pos h, shown_printable hs.original]
    rfl
  · rw [if_neg h, if_neg h, if_neg h]
    rfl

/-- A width that cannot be read is rejected. -/
theorem validate_invalid {s : SizeSpec} (hs : s.Ready) (h : s.width.unit = .invalid) :
    validate s = ⟨[.error s.widthError.message], .error (.sizing s.widthError)⟩ := by
  unfold validate
  rw [if_pos h, shown_printable hs.original]
  rfl

/-- A size without any axis is rejected. -/
theorem validate_empty {s : SizeSpec} (hs : s.Ready) (hw : s.width.unit ≠ .invalid)
    (h : (s.width.isSpecified || s.height.orUnspecified.isSpecified) = false) :
    validate s = ⟨s.heightWarning ++ [.error s.emptyError.message],
      .error (.sizing s.emptyError)⟩ := by
  have hempty : ¬(s.withoutInvalid.width.isSpecified || s.withoutInvalid.height.isSpecified) = true :=
    ne_true_of_eq_false h
  have hdescribed : described s.withoutInvalid = pure (Value.map s.original).description :=
    described_printable (s := s.withoutInvalid) hs.original
  unfold validate
  rw [if_neg hw, dropInvalidHeight_ready hs, Logged.bind_ok _ rfl, if_neg hempty, hdescribed]
  rfl

/-- Any other size goes on without an invalid height. -/
theorem validate_given {s : SizeSpec} (hs : s.Ready) (hw : s.width.unit ≠ .invalid)
    (h : (s.width.isSpecified || s.height.orUnspecified.isSpecified) = true) :
    validate s = ⟨s.heightWarning, .ok s.withoutInvalid⟩ := by
  have hgiven : (s.withoutInvalid.width.isSpecified || s.withoutInvalid.height.isSpecified) = true := h
  unfold validate
  rw [if_neg hw, dropInvalidHeight_ready hs, Logged.bind_ok _ rfl, if_pos hgiven]
  show (⟨s.heightWarning ++ [], .ok s.withoutInvalid⟩ : Logged SizeSpec) = _
  rw [List.append_nil]

theorem readable_orUnspecified {d : Dimension} (h : d.Readable) : d.orUnspecified.Readable := by
  unfold Dimension.orUnspecified
  split
  · exact Dimension.readable_unspecified
  · exact h

theorem orUnspecified_valid (d : Dimension) : d.orUnspecified.unit ≠ .invalid := by
  unfold Dimension.orUnspecified
  by_cases h : d.unit = .invalid
  · rw [if_pos h]
    decide
  · rw [if_neg h]
    exact h

theorem accepted_withoutInvalid {s : SizeSpec} (hs : s.Ready) (hw : s.width.unit ≠ .invalid)
    (h : (s.width.isSpecified || s.height.orUnspecified.isSpecified) = true) :
    s.withoutInvalid.Accepted :=
  ⟨⟨hs.width, readable_orUnspecified hs.height, hs.original⟩, ⟨hw, orUnspecified_valid s.height, h⟩⟩

theorem orUnspecified_of_valid {d : Dimension} (h : d.unit ≠ .invalid) : d.orUnspecified = d :=
  if_neg h

/-- Validation has nothing to say about what it has accepted. -/
theorem validate_accepted {s : SizeSpec} (hs : s.Accepted) : validate s = pure s :=
  validate_of_valid hs.toValid

/-! ## Policies and validation -/

/-- Every policy begins with validation. -/
theorem apply_of_rejected {s : SizeSpec} {l : List LogEntry} {f : Failure}
    (hv : validate s = ⟨l, .error f⟩) (p : Policy) (real : RealDimension) :
    p.apply s real = ⟨l, .error f⟩ := by
  have hbind : ∀ next : SizeSpec → Logged SizeSpec, validate s >>= next = ⟨l, .error f⟩ := by
    intro next
    rw [hv]
    rfl
  cases p with
  | contain => exact hbind _
  | cover => exact hbind _
  | exact => exact hbind _
  | check => exact hv

/-- What validation changes no policy sees. -/
theorem apply_of_validated {s t : SizeSpec} {l : List LogEntry} (hv : validate s = ⟨l, .ok t⟩)
    (ht : validate t = pure t) (p : Policy) (real : RealDimension) :
    p.apply s real = ⟨l ++ (p.apply t real).entries, (p.apply t real).result⟩ := by
  have hbind : ∀ next : SizeSpec → Logged SizeSpec, validate s >>= next =
      ⟨l ++ (validate t >>= next).entries, (validate t >>= next).result⟩ := by
    intro next
    rw [hv, ht, Logged.bind_ok _ rfl, Logged.pure_bind]
  cases p with
  | contain => exact hbind _
  | cover => exact hbind _
  | exact => exact hbind _
  | check =>
    show validate s = ⟨l ++ (validate t).entries, (validate t).result⟩
    rw [hv, ht]
    show _ = (⟨l ++ [], .ok t⟩ : Logged SizeSpec)
    rw [List.append_nil]

/-! ## Accepted sizes -/

def bothGiven (width height : Dimension) : Bool := width.isSpecified && height.isSpecified

theorem check_accepted {s : SizeSpec} (hs : s.Accepted) (real : RealDimension) :
    Policy.check.apply s real = pure s :=
  validate_accepted hs

theorem exact_accepted {s : SizeSpec} (hs : s.Accepted) (real : RealDimension) :
    Policy.exact.apply s real =
      if bothGiven s.width s.height = true then pure s
      else ⟨[.error s.exactError.message], .error (.sizing s.exactError)⟩ := by
  show exact s = _
  unfold exact
  rw [validate_accepted hs, Logged.pure_bind, described_printable hs.original]
  rfl

/-- Accepted axes have shares, and either choice between them has a double. -/
theorem exists_factors {s : SizeSpec} {real : RealDimension} (hs : s.Accepted)
    (axisw : real.width.HasDouble) (axish : real.height.HasDouble) :
    ∃ w h, shares? s.width s.height real = some (w, h) ∧
      ∃ factor : Choice → Binary64, ∀ c : Choice, (c.pick h w).toBinary64 = .ok (factor c) := by
  obtain ⟨w, h, hshares, hw, hh⟩ := exists_shares hs.width hs.height hs.width_valid hs.height_valid
    hs.given axisw axish
  refine ⟨w, h, hshares, ?_⟩
  obtain ⟨x, hx⟩ := hasDouble_pick .smaller hh hw
  obtain ⟨y, hy⟩ := hasDouble_pick .larger hh hw
  refine ⟨Choice.rec (motive := fun _ => Binary64) x y, ?_⟩
  intro c
  cases c with
  | smaller => exact hx
  | larger => exact hy

def Choice.policy : Choice → Policy
  | smaller => .contain
  | larger => .cover

/-- A valid size is scaled without further ado. -/
theorem apply_of_valid {s : SizeSpec} (hs : s.Valid) (c : Choice) (real : RealDimension) :
    c.policy.apply s real = Logged.ofExcept (scaleBoth c s real) := by
  have hscale : (do Logged.ofExcept (scaleBoth c (← validate s) real)) =
      (Logged.ofExcept (scaleBoth c s real) : Logged SizeSpec) := by
    rw [validate_of_valid hs, Logged.pure_bind]
  cases c with
  | smaller => exact hscale
  | larger => exact hscale

theorem scale_valid {s : SizeSpec} {real : RealDimension} {w h : Number} {f : Binary64}
    (hs : s.Valid) (c : Choice) (hshares : shares? s.width s.height real = some (w, h))
    (hf : (c.pick h w).toBinary64 = .ok f) :
    c.policy.apply s real = pure (s.withSize (.factor f) (.factor f)) := by
  rw [apply_of_valid hs, scaleBoth_of_shares? c hshares hf]
  rfl

theorem scale_accepted {s : SizeSpec} {real : RealDimension} {w h : Number} {f : Binary64}
    (hs : s.Accepted) (c : Choice) (hshares : shares? s.width s.height real = some (w, h))
    (hf : (c.pick h w).toBinary64 = .ok f) :
    c.policy.apply s real = pure (s.withSize (.factor f) (.factor f)) :=
  scale_valid hs.toValid c hshares hf

/-- A size whose axes are one factor. -/
theorem accepted_uniform {s : SizeSpec} (h : Value.printableEntries s.original = true) (f : Binary64) :
    (s.withSize (.factor f) (.factor f)).Accepted :=
  ⟨⟨Dimension.readable_factor f, Dimension.readable_factor f, h⟩, ⟨nofun, nofun, rfl⟩⟩

/-- No policy changes a size whose axes are one factor. -/
theorem apply_uniform {s : SizeSpec} {f : Binary64} (hw : s.width = .factor f)
    (hh : s.height = .factor f) (ho : Value.printableEntries s.original = true) (p : Policy)
    (real : RealDimension) : p.apply s real = pure s := by
  obtain ⟨width, height, queue, original, extras⟩ := s
  obtain rfl : width = .factor f := hw
  obtain rfl : height = .factor f := hh
  have hs : SizeSpec.Accepted ⟨.factor f, .factor f, queue, original, extras⟩ :=
    accepted_uniform (s := ⟨.factor f, .factor f, queue, original, extras⟩) ho f
  have hscale : ∀ c : Choice, c.policy.apply ⟨.factor f, .factor f, queue, original, extras⟩ real =
      pure ⟨.factor f, .factor f, queue, original, extras⟩ := by
    intro c
    refine scale_accepted hs c (w := .float f) (h := .float f) rfl ?_
    rw [pick_self]
    rfl
  cases p with
  | contain => exact hscale .smaller
  | cover => exact hscale .larger
  | exact => exact exact_accepted hs real
  | check => exact check_accepted hs real

end Scaling

end ImageSizing
