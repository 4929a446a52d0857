import ImageSizing.Proofs.Engine.BuiltIn
import ImageSizing.Proofs.Engine.StepLimit
import ImageSizing.Proofs.Size.Data

/-!
# Containment of failures

An engine without custom functions that is given data ends in a size in whole pixels or in
an error of validation or of the step limit, whatever the data looks like and however large,
small or odd the axes are (`toPixels_contained`).  What carries this through a run is that
every size on the way is ready: its axes are readable and its snapshot can be printed, so
that each policy returns a size which is ready again or fails in one of its three ways
(`apply_yields`), and at the end each axis is a number.
-/

namespace ImageSizing

open Logged

namespace Scaling

/-- A size that validation accepts is made ready again, or `exact` misses an axis of it. -/
theorem apply_accepted_yields {s : SizeSpec} {real : RealDimension} (hs : s.Accepted)
    (axisw : real.width.HasDouble) (axish : real.height.HasDouble) (p : Policy) :
    (p.apply s real).Yields SizeSpec.Ready := by
  have hscale : ∀ c : Choice, (c.policy.apply s real).Yields SizeSpec.Ready := by
    intro c
    obtain ⟨w, h, hshares, factor, hf⟩ := exists_factors hs axisw axish
    rw [scale_accepted hs c hshares (hf c)]
    exact yields_pure (accepted_uniform hs.original (factor c)).toReady
  cases p with
  | contain => exact hscale .smaller
  | cover => exact hscale .larger
  | check =>
    rw [check_accepted hs real]
    exact yields_pure hs.toReady
  | exact =>
    rw [exact_accepted hs real]
    split
    · exact yields_pure hs.toReady
    · exact yields_of_error rfl ⟨.inl rfl, fun _ => ⟨nofun, nofun⟩⟩

/-- A policy makes a ready size ready again, or rejects it. -/
theorem apply_yields {s : SizeSpec} {real : RealDimension} (hs : s.Ready)
    (axisw : real.width.HasDouble) (axish : real.height.HasDouble) (p : Policy) :
    (p.apply s real).Yields SizeSpec.Ready := by
  by_cases hw : s.width.unit = .invalid
  · rw [apply_of_rejected (validate_invalid hs hw)]
    exact yields_of_error rfl ⟨.inl rfl, fun _ => ⟨nofun, nofun⟩⟩
  · by_cases hempty : (s.width.isSpecified || s.height.orUnspecified.isSpecified) = false
    · rw [apply_of_rejected (validate_empty hs hw hempty)]
      exact yields_of_error rfl ⟨.inl rfl, fun _ => ⟨nofun, nofun⟩⟩
    · have hgiven : (s.width.isSpecified || s.height.orUnspecified.isSpecified) = true :=
        (Bool.not_eq_false _).mp hempty
      have haccepted := accepted_withoutInvalid hs hw hgiven
      have happly := apply_of_validated (validate_given hs hw hgiven) (validate_accepted haccepted) p real
      refine (apply_accepted_yields haccepted axisw axish p).of_result_eq ?_
      rw [happly]

/-- The pixels of an axis that can be calculated with are a number. -/
theorem exists_absolute {d : Dimension} {axis : Number} (hd : d.Readable) (hc : d.isConcrete = true)
    (ha : axis.HasDouble) : ∃ v : Number, absolute d (.ofNumber axis) = .ok (.ofNumber v) := by
  obtain ⟨unit, value⟩ := d
  cases unit with
  | pixel =>
    obtain ⟨v, hvalue, -⟩ := hd
    exact ⟨v, congrArg Except.ok hvalue⟩
  | factor =>
    obtain ⟨v, hvalue, hv⟩ := hd
    obtain rfl : value = .ofNumber v := hvalue
    obtain ⟨p, hp⟩ := Number.exists_mul hv ha
    refine ⟨p, ?_⟩
    show ((Value.ofNumber v).times (.ofNumber axis)).mapError Failure.fault = _
    rw [times_eq hp]
    rfl
  | unspecified => cases hc
  | invalid => cases hc

end Scaling

namespace Engine

/-! ## Whole pixels -/

theorem toPixelSize_yields (width height : Int) :
    (toPixelSize width height).Yields fun _ => True := by
  unfold toPixelSize
  split
  · exact yields_fatal ⟨.inl rfl, fun _ => ⟨nofun, nofun⟩⟩
  · exact yields_pure trivial

theorem described_yields {s : SizeSpec} (hs : s.Ready) {err : String → SizingError}
    (herr : ∀ d, (err d).IsExpected) :
    (Scaling.described s >>= fun d => (fatal (err d) : Logged PixelSize)).Yields fun _ => True := by
  rw [Scaling.described_printable hs.original, Logged.pure_bind]
  exact yields_fatal (herr _)

theorem bothFinite_ofNumber (v w : Number) :
    bothFinite (.ofNumber v) (.ofNumber w) = .ok (v.isFinite && w.isFinite) := by
  unfold bothFinite
  rw [Value.isFinite_ofNumber, Value.isFinite_ofNumber]
  show (if v.isFinite = true then Except.ok w.isFinite else .ok false) = _
  cases v.isFinite <;> rfl

theorem roundHalfUp_finite {v : Number} (h : v.isFinite = true) :
    ∃ n, ofFaulty (Value.ofNumber v).roundHalfUp = pure n := by
  obtain ⟨n, hn⟩ := Number.exists_roundHalfUp h
  refine ⟨n, ?_⟩
  rw [Value.roundHalfUp_ofNumber, hn]
  rfl

/-- A ready size has whole pixels, or it is not resolved, too large or negative. -/
theorem pixelsOf_yields {s : SizeSpec} {real : RealDimension} (hs : s.Ready)
    (axisw : real.width.HasDouble) (axish : real.height.HasDouble) :
    (pixelsOf s real).Yields fun _ => True := by
  unfold pixelsOf
  by_cases hconcrete : (s.width.isConcrete && s.height.isConcrete) = true
  · obtain ⟨hwidth, hheight⟩ := Bool.and_eq_true_iff.1 hconcrete
    obtain ⟨v, hv⟩ := Scaling.exists_absolute hs.width hwidth axisw
    obtain ⟨w, hw⟩ := Scaling.exists_absolute hs.height hheight axish
    rw [if_pos hconcrete, hv, hw]
    show (ofFaulty (bothFinite (.ofNumber v) (.ofNumber w)) >>= fun finite => _).Yields _
    rw [bothFinite_ofNumber]
    show (if (v.isFinite && w.isFinite) = true then _ else _ : Logged PixelSize).Yields _
    by_cases hfinite : (v.isFinite && w.isFinite) = true
    · obtain ⟨hvf, hwf⟩ := Bool.and_eq_true_iff.1 hfinite
      obtain ⟨m, hm⟩ := roundHalfUp_finite hvf
      obtain ⟨n, hn⟩ := roundHalfUp_finite hwf
      rw [if_pos hfinite, hm, hn]
      exact toPixelSize_yields m n
    · rw [if_neg hfinite]
      exact described_yields hs fun _ => ⟨.inl rfl, fun _ => ⟨nofun, nofun⟩⟩
  · rw [if_neg hconcrete]
    exact described_yields hs fun _ => ⟨.inl rfl, fun _ => ⟨nofun, nofun⟩⟩

/-! ## Runs -/

theorem limitReached_yields (e : Engine) {original : Mapping} (pending : Nat)
    (h : Value.printableEntries original = true) :
    (e.limitReached original pending).Yields SizeSpec.Ready := by
  rw [limitReached_describable e pending (Value.printable_erase h "original")]
  exact yields_of_error rfl ⟨.inr rfl, fun _ => ⟨nofun, nofun⟩⟩

/-- A queue of built-in steps keeps a size ready to its end, or to the step that rejects it. -/
theorem drain_yields {e : Engine} {res : Resolver} {real : RealDimension}
    (axisw : real.width.HasDouble) (axish : real.height.HasDouble) (n : Nat) {s : SizeSpec}
    (hs : s.Ready) (hsteps : ∀ step ∈ s.queue, step.runsPolicy = true) :
    (e.drain res real s.original n s).Yields SizeSpec.Ready := by
  induction n generalizing s with
  | zero =>
    unfold drain
    split
    · exact yields_pure hs
    · exact limitReached_yields e _ hs.original
  | succ n ih =>
    cases hq : s.queue with
    | nil =>
      rw [drain_nil hq]
      exact yields_pure hs
    | cons step rest =>
      rw [hq] at hsteps
      obtain ⟨p, haction⟩ := Step.exists_policy (hsteps step List.mem_cons_self)
      have hyields := Scaling.apply_yields (hs.withQueue rest) axisw axish p
      cases happly : p.apply (s.withQueue rest) real with
      | mk l r =>
        rw [happly] at hyields
        cases r with
        | error f =>
          rw [drain_builtIn_failed hq haction happly]
          exact hyields
        | ok t =>
          obtain ⟨width, height, rfl⟩ := Scaling.apply_axes (congrArg Logged.result happly)
          have horiginal : ((s.withQueue rest).withSize width height).original = s.original := rfl
          rw [drain_builtIn hq haction happly horiginal]
          exact ih (s := (s.withQueue rest).withSize width height) hyields
            fun step' hstep' => hsteps step' (List.mem_cons_of_mem step hstep')

theorem isPlain_of_isData {size : Value} (hdata : size.IsData)
    (hfresh : ∀ m, size = .map m → (Mapping.get m "original").isTruthy = false) :
    size.isPlain = true := by
  have hready : ∀ v : Value, v.IsData → Dimension.isReady v = false := by
    intro v hv
    cases v with
    | dim _ _ => exact hv.elim
    | _ => rfl
  cases size with
  | map m =>
    show (!(Mapping.get m "original").isTruthy && !Dimension.isReady (Mapping.get m "width")
      && !Dimension.isReady (Mapping.get m "height")) = true
    rw [hfresh m rfl, hready _ (Value.isData_get hdata "width"),
      hready _ (Value.isData_get hdata "height")]
    rfl
  | dim _ _ => exact hdata.elim
  | spec _ _ _ _ _ => exact hdata.elim
  | _ => rfl

/-- Without custom functions, data that brings no snapshot with it has a size in whole pixels or
is refused with an error of validation or of the step limit; no fault escapes, and no dimension
is converted that cannot be. -/
theorem toPixels_contained {e : Engine} {size : Value} {real : RealDimension} {separator : String}
    {ne : separator ≠ ""} (hsep : e.config.separator = .text separator ne)
    (hcustom : e.registry.custom = []) (hdata : size.IsData)
    (hfresh : ∀ m, size = .map m → (Mapping.get m "original").isTruthy = false)
    (axisw : real.width.HasDouble) (axish : real.height.HasDouble) :
    (∃ p, (e.toPixels size real).result = .ok p) ∨
    ∃ err, (e.toPixels size real).result = .error (.sizing err) ∧
      (err.kind = .validation ∨ err.kind = .nonTermination) ∧
      ∀ u, err ≠ .notRelatable u ∧ err ≠ .notAbsolute u := by
  have hcalculate : (e.calculate size real).Yields SizeSpec.Ready :=
    (Size.normalize_yields hsep hcustom (isPlain_of_isData hdata hfresh) hdata).bind
      fun s _ hs => drain_yields axisw axish _ hs.1 hs.2
  have hpixels : (e.toPixels size real).Yields fun _ => True :=
    hcalculate.bind fun s _ hs => pixelsOf_yields hs axisw axish
  exact hpixels.cases

/-- An integer factor, a reference that is no function and an infinite axis. -/
def oddSize : Value :=
  .map [(.str "width", .map [(.str "unit", .str "x"), (.str "value", .int 3)]),
    (.str "function", .list [.str "cover", .int 7])]

/-- A picture that is 200 pixels wide and infinitely high. -/
def endlessReal : RealDimension := ⟨.int 200, .float (.infinite false), rfl, rfl⟩

theorem isData_oddSize : oddSize.IsData := by
  have hfactor : (Value.map [(.str "unit", .str "x"), (.str "value", .int 3)]).IsData :=
    ⟨Value.isData_str (by decide), Value.isData_str (by decide), Value.isData_str (by decide),
      Numeral.printable_iff.2 (by decide +kernel), trivial⟩
  have hrefs : (Value.list [.str "cover", .int 7]).IsData :=
    ⟨Value.isData_str (by decide), Numeral.printable_iff.2 (by decide +kernel), trivial⟩
  exact ⟨Value.isData_str (by decide), hfactor, Value.isData_str (by decide), hrefs, trivial⟩

theorem toPixels_contained_odd :
    oddSize.IsData ∧ endlessReal.width.HasDouble ∧ endlessReal.height.HasDouble ∧
    ((∃ p, (({} : Engine).toPixels oddSize endlessReal).result = .ok p) ∨
    ∃ err, (({} : Engine).toPixels oddSize endlessReal).result = .error (.sizing err) ∧
      (err.kind = .validation ∨ err.kind = .nonTermination) ∧
      ∀ u, err ≠ .notRelatable u ∧ err ≠ .notAbsolute u) := by
  have hwidth : endlessReal.width.HasDouble := Number.hasDouble_of_isFinite (by decide +kernel)
  have hheight : endlessReal.height.HasDouble := Number.hasDouble_float _
  refine ⟨isData_oddSize, hwidth, hheight, toPixels_contained rfl rfl isData_oddSize ?_ hwidth hheight⟩
  intro m hm
  cases hm
  rfl

end Engine

end ImageSizing
