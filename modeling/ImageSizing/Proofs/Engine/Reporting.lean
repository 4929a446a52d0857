import ImageSizing.Engine.Basic
import ImageSizing.Proofs.Scaling.Concrete

/-!
# Errors in the log

Whatever custom functions ask of the engine, a calculation and a size in pixels end in a
sizing error exactly where the last line of the log, and no other line, is about an error
(`calculate_toPixels_disciplined`).  A script cannot raise a sizing error of its own or stop
one, so it is enough that each request reports its errors, calculations inside one another
included (`resolveAt_reports`), and that the conversions to fractions and pixels, which
would fail without a word, are only asked for concrete dimensions.
-/

namespace ImageSizing

open Logged

namespace Size

theorem ofText_reports (cfg : EngineConfig) (raw : String) : (ofText cfg raw).Reports := by
  unfold ofText
  split
  · exact reports_fault _
  · split
    · unfold ofPair
      split
      · exact reports_fatal _
      · exact reports_pure _
    · exact reports_pure _

theorem entries_reports (cfg : EngineConfig) (raw : Value) : (entries cfg raw).Reports := by
  unfold entries
  split
  · exact reports_ofFaulty _
  · exact reports_pure _
  · exact reports_pure _
  · exact ofText_reports cfg _
  · exact reports_pure _

theorem canonical_reports (cfg : EngineConfig) (raw : Value) : (canonical cfg raw).Reports :=
  (entries_reports cfg raw).bind fun _ _ => reports_pure _

theorem resolve_reports (cfg : EngineConfig) (r : Registry) (ref : Value) :
    (resolve cfg r ref).Reports := by
  unfold resolve
  split
  · exact reports_pure _
  · exact (reports_warn _).bind fun _ _ => reports_pure _

theorem resolveAll_reports (cfg : EngineConfig) (r : Registry) (refs : List Value) :
    (resolveAll cfg r refs).Reports := by
  induction refs with
  | nil => exact reports_pure _
  | cons ref refs ih =>
    exact (resolve_reports cfg r ref).bind fun _ _ => ih.bind fun _ _ => reports_pure _

/-- Only a text with too many separators has no normal form for a sizing error. -/
theorem normalize_reports (cfg : EngineConfig) (r : Registry) (raw : Value)
    (pinned : Option Mapping) : (normalize cfg r raw pinned).Reports := by
  have hspec : ∀ w h fs o x, (normalizeSpec cfg r w h fs o x).Reports := fun w h fs o x =>
    (reports_ofFaulty _).bind fun _ _ => (reports_ofFaulty _).bind fun _ _ =>
      (resolveAll_reports cfg r fs).bind fun _ _ => reports_pure _
  have hcanonical : ∀ m, (normalizeCanonical cfg r m).Reports := fun m =>
    (reports_ofFaulty _).bind fun _ _ => (reports_ofFaulty _).bind fun _ _ =>
      (resolveAll_reports cfg r _).bind fun _ _ => (reports_ofFaulty _).bind fun _ _ =>
        reports_pure _
  have hraw : (canonical cfg raw >>= fun m => normalizeCanonical cfg r (pin pinned m)).Reports :=
    (canonical_reports cfg raw).bind fun m _ => hcanonical (pin pinned m)
  cases raw with
  | spec w h fs o x => exact hspec w h fs (pinned.getD o) x
  | _ => exact hraw

end Size

namespace Engine

variable (e : Engine)

/-! ## Requests -/

theorem toPixelSize_reports (width height : Int) : (toPixelSize width height).Reports := by
  unfold toPixelSize
  split
  · exact reports_fatal _
  · exact reports_pure _

/-- A finished size is converted to pixels only if both axes are concrete. -/
theorem pixelsOf_reports (s : SizeSpec) (real : RealDimension) : (pixelsOf s real).Reports := by
  unfold pixelsOf
  split
  · rename_i hconcrete
    obtain ⟨hwidth, hheight⟩ := Bool.and_eq_true_iff.1 hconcrete
    refine (reports_ofExcept (Scaling.faultsOnly_absolute hwidth _)).bind fun width _ => ?_
    refine (reports_ofExcept (Scaling.faultsOnly_absolute hheight _)).bind fun height _ => ?_
    refine (reports_ofFaulty _).bind fun finite _ => ?_
    split
    · exact (reports_ofFaulty _).bind fun _ _ => (reports_ofFaulty _).bind fun _ _ =>
        toPixelSize_reports _ _
    · exact (Scaling.reports_described s).bind fun _ _ => reports_fatal _
  · exact (Scaling.reports_described s).bind fun _ _ => reports_fatal _

/-- A script adds nothing of its own to the log, and what it asks for reports. -/
theorem runScript_reports {resolver : Resolver} (hres : ∀ size real, (resolver size real).Reports)
    (script : Script) : (e.runScript resolver script).Reports := by
  induction script with
  | done answer => exact reports_pure answer
  | fail fault => exact reports_fault fault
  | elaborate size next ih => exact (Size.canonical_reports _ size).bind fun m _ => ih m
  | normalize size next ih => exact (Size.normalize_reports _ _ size none).bind fun s _ => ih s
  | calculate size real next ih => exact (hres size real).bind fun s _ => ih s
  | toPixels size real next ih =>
    exact (hres size real).bind fun s _ => (pixelsOf_reports s real).bind fun p _ => ih p
  | apply policy size real next ih => exact (Scaling.reports_apply policy size real).bind fun s _ => ih s

/-! ## Runs -/

theorem perform_reports {resolver : Resolver} (hres : ∀ size real, (resolver size real).Reports)
    (step : Step) (size : SizeSpec) (real : RealDimension) :
    (e.perform resolver step size real).Reports := by
  unfold perform
  split
  · exact (Scaling.reports_apply _ size real).bind fun _ _ => reports_pure _
  · exact e.runScript_reports hres _

/-- The line at the step limit begins with the text of the error. -/
theorem limitReached_reports (original : Mapping) (pending : Nat) :
    (e.limitReached original pending).Reports :=
  (reports_ofFaulty _).bind fun d _ => ⟨[], SizingError.forSize d, rfl, quiet_nil⟩

theorem drain_reports {resolver : Resolver} (hres : ∀ size real, (resolver size real).Reports)
    (real : RealDimension) (original : Mapping) (n : Nat) (s : SizeSpec) :
    (e.drain resolver real original n s).Reports := by
  induction n generalizing s with
  | zero =>
    unfold drain
    split
    · exact reports_pure s
    · exact e.limitReached_reports original _
  | succ n ih =>
    unfold drain
    split
    · exact reports_pure s
    · exact (e.perform_reports hres _ _ real).bind fun _ _ =>
        (Size.normalize_reports _ _ _ _).bind fun next _ => ih next

theorem calculateWith_reports {resolver : Resolver}
    (hres : ∀ size real, (resolver size real).Reports) (size : Value) (real : RealDimension) :
    (e.calculateWith resolver size real).Reports :=
  (Size.normalize_reports _ _ size none).bind fun s _ =>
    e.drain_reports hres real s.original e.config.maxSteps.steps s

/-- Calculations inside one another report, however deep they are. -/
theorem resolveAt_reports (depth : Nat) :
    ∀ size real, (e.resolveAt depth size real).Reports := by
  induction depth with
  | zero => exact fun size real => reports_fault _
  | succ depth ih => exact e.calculateWith_reports ih

theorem calculate_reports (size : Value) (real : RealDimension) : (e.calculate size real).Reports :=
  e.calculateWith_reports (e.resolveAt_reports e.nesting) size real

/-- Calculations and sizes in pixels log a sizing error, as the last line, exactly where they end
in one. -/
theorem calculate_toPixels_disciplined (size : Value) (real : RealDimension) :
    (e.calculate size real).Disciplined ∧ (e.toPixels size real).Disciplined :=
  ⟨(e.calculate_reports size real).disciplined,
    ((e.calculate_reports size real).bind fun s _ => pixelsOf_reports s real).disciplined⟩

end Engine

end ImageSizing
