import ImageSizing.Engine.Recipe
import ImageSizing.Proofs.Scaling.Frame
import ImageSizing.Proofs.Size.Normal
import ImageSizing.Proofs.Value.Faults

/-!
# Faults that custom functions raise

The engine reads sizes and calculates with them, and never comes across an output.  If it fails
with a fault about an output all the same, then a custom function has raised that fault
(`toPixels_avoids`): a script ends in a fault of its own or in that of a request
(`runScript_avoids`), calculations inside one another included.  Ready-made functions raise no
such fault (`not_raises_of_recipes`).
-/

namespace ImageSizing

open Logged

variable {o : OutputFault}

/-! ## Policies -/

namespace Scaling

theorem relative_ne_output {d : Dimension} {axis : Value} :
    relative d axis ≠ .error (.fault (.output o)) := by
  unfold relative
  split
  · nofun
  · exact mapError_fault_ne_error Value.dividedBy_ne_output
  · nofun

theorem absolute_ne_output {d : Dimension} {axis : Value} :
    absolute d axis ≠ .error (.fault (.output o)) := by
  unfold absolute
  split
  · exact mapError_fault_ne_error Value.times_ne_output
  · nofun
  · nofun

theorem matching_ne_output {d : Dimension} {axis other : Number} :
    matching d axis other ≠ .error (.fault (.output o)) :=
  bind_ne_error relative_ne_output fun _ =>
    bind_ne_error (mapError_fault_ne_error Value.times_ne_output) fun _ => pure_ne_error _

theorem inferMissing_ne_output {s : SizeSpec} {real : RealDimension} :
    inferMissing s real ≠ .error (.fault (.output o)) := by
  rw [inferMissing_eq]
  refine bind_ne_error ?_ fun width => bind_ne_error ?_ fun _ => pure_ne_error _
  · split
    · exact pure_ne_error _
    · exact matching_ne_output
  · split
    · exact pure_ne_error _
    · exact matching_ne_output

theorem Choice.of_ne_output (c : Choice) {v w : Value} : c.of v w ≠ .error (.output o) := by
  have hprefers : c.prefers w v ≠ .error (.output o) := by
    cases c with
    | smaller => exact Value.isBelow_ne_output
    | larger => exact Value.isAbove_ne_output
  exact bind_ne_error hprefers fun _ => pure_ne_error _

theorem scaleBoth_ne_output (c : Choice) {s : SizeSpec} {real : RealDimension} :
    scaleBoth c s real ≠ .error (.fault (.output o)) := by
  refine bind_ne_error inferMissing_ne_output fun t => ?_
  refine bind_ne_error relative_ne_output fun h => bind_ne_error relative_ne_output fun w => ?_
  refine bind_ne_error (mapError_fault_ne_error ?_) fun _ => pure_ne_error _
  exact bind_ne_error c.of_ne_output fun _ => Value.toBinary64_ne_output

theorem described_avoids (s : SizeSpec) : (described s).Avoids (.output o) :=
  avoids_ofFaulty Value.description?_ne_output

theorem shown_avoids (s : SizeSpec) (key : String) : (shown s key).Avoids (.output o) :=
  avoids_ofFaulty Value.display?_ne_output

theorem validate_avoids (s : SizeSpec) : (validate s).Avoids (.output o) := by
  have hdrop : (dropInvalidHeight s).Avoids (.output o) := by
    unfold dropInvalidHeight
    split
    · exact (shown_avoids s _).bind fun _ => (avoids_warn _).bind fun _ => avoids_pure _
    · exact avoids_pure _
  unfold validate
  split
  · exact (shown_avoids s _).bind fun _ => avoids_fatal _
  · refine hdrop.bind fun t => ?_
    split
    · exact avoids_pure _
    · exact (described_avoids t).bind fun _ => avoids_fatal _

end Scaling

theorem Policy.apply_avoids (p : Policy) (s : SizeSpec) (real : RealDimension) :
    (p.apply s real).Avoids (.output o) := by
  have hscale : ∀ c, (Scaling.validate s >>= fun t => ofExcept (Scaling.scaleBoth c t real)).Avoids
      (.output o) :=
    fun c => (Scaling.validate_avoids s).bind fun _ => avoids_ofExcept (Scaling.scaleBoth_ne_output c)
  cases p with
  | contain => exact hscale .smaller
  | cover => exact hscale .larger
  | check => exact Scaling.validate_avoids s
  | exact =>
    refine (Scaling.validate_avoids s).bind fun t => ?_
    split
    · exact avoids_pure _
    · exact (Scaling.described_avoids t).bind fun _ => avoids_fatal _

/-! ## Sizes -/

namespace Size

variable (cfg : EngineConfig) (r : Registry)

theorem axisMapping_ne_output {v : Value} : axisMapping v ≠ .error (.output o) := by
  unfold axisMapping
  split <;> nofun

theorem ofText_avoids (raw : String) : (ofText cfg raw).Avoids (.output o) := by
  unfold ofText
  split
  · exact avoids_fail nofun
  · split
    · unfold ofPair
      split
      · exact avoids_fatal _
      · exact avoids_pure _
    · exact avoids_pure _

theorem canonical_avoids (raw : Value) : (canonical cfg raw).Avoids (.output o) := by
  have hentries : (entries cfg raw).Avoids (.output o) := by
    unfold entries
    split
    · exact avoids_ofFaulty (bind_ne_error axisMapping_ne_output fun _ =>
        bind_ne_error axisMapping_ne_output fun _ => pure_ne_error _)
    · exact avoids_pure _
    · exact avoids_pure _
    · exact ofText_avoids cfg _
    · exact avoids_pure _
  exact hentries.bind fun _ => avoids_pure _

theorem resolveAll_avoids (refs : List Value) : (resolveAll cfg r refs).Avoids (.output o) := by
  have hresolve : ∀ ref, (resolve cfg r ref).Avoids (.output o) := by
    intro ref
    unfold resolve
    split
    · exact avoids_pure _
    · exact (avoids_warn _).bind fun _ => avoids_pure _
  induction refs with
  | nil => exact avoids_pure _
  | cons ref rest ih => exact (hresolve ref).bind fun _ => ih.bind fun _ => avoids_pure _

theorem normalize_avoids (raw : Value) (pinned : Option Mapping) :
    (normalize cfg r raw pinned).Avoids (.output o) := by
  have hread : ∀ v, (ofFaulty (Dimension.read cfg.grammar v)).Avoids (.output o) :=
    fun _ => avoids_ofFaulty Dimension.read_ne_output
  have hspec : ∀ w h fs s x, (normalizeSpec cfg r w h fs s x).Avoids (.output o) :=
    fun w h fs s x => (hread w).bind fun _ => (hread h).bind fun _ =>
      (resolveAll_avoids cfg r fs).bind fun _ => avoids_pure _
  have hcanonical : ∀ m, (normalizeCanonical cfg r m).Avoids (.output o) :=
    fun m => (hread _).bind fun _ => (hread _).bind fun _ => (resolveAll_avoids cfg r _).bind fun _ =>
      (avoids_ofFaulty Mapping.ofValue_ne_output).bind fun _ => avoids_pure _
  by_cases hraw : ∃ w h fs s x, raw = .spec w h fs s x
  · obtain ⟨w, h, fs, s, x, rfl⟩ := hraw
    exact hspec w h fs _ x
  · rw [normalize_of_not_spec fun w h fs s x heq => hraw ⟨w, h, fs, s, x, heq⟩]
    exact (canonical_avoids cfg raw).bind fun m => hcanonical _

end Size

/-! ## Scripts -/

/-- A script ends in a fault of its own, whatever its requests are answered. -/
inductive Script.Raises (f : Fault) : Script → Prop
  | fail : Raises f (.fail f)
  | elaborate {size : Value} {next : Mapping → Script} {m : Mapping} (later : Raises f (next m)) :
    Raises f (.elaborate size next)
  | normalize {size : Value} {next : SizeSpec → Script} {s : SizeSpec} (later : Raises f (next s)) :
    Raises f (.normalize size next)
  | calculate {size : Value} {real : RealDimension} {next : SizeSpec → Script} {s : SizeSpec}
      (later : Raises f (next s)) : Raises f (.calculate size real next)
  | toPixels {size : Value} {real : RealDimension} {next : PixelSize → Script} {p : PixelSize}
      (later : Raises f (next p)) : Raises f (.toPixels size real next)
  | apply {policy : Policy} {size : SizeSpec} {real : RealDimension} {next : SizeSpec → Script}
      {s : SizeSpec} (later : Raises f (next s)) : Raises f (.apply policy size real next)

namespace Engine

/-- Some custom function raises a fault. -/
def Raises (e : Engine) (f : Fault) : Prop := ∃ c s real, (e.functions c s real).Raises f

variable {e : Engine} {resolver : Resolver}

theorem pixelsOf_avoids (s : SizeSpec) (real : RealDimension) :
    (pixelsOf s real).Avoids (.output o) := by
  have hfinite : ∀ width height, (ofFaulty (bothFinite width height)).Avoids (.output o) := by
    intro width height
    refine avoids_ofFaulty (bind_ne_error Value.isFinite_ne_output fun finite => ?_)
    cases finite with
    | true => exact Value.isFinite_ne_output
    | false => exact pure_ne_error _
  have hsize : ∀ width height, (toPixelSize width height).Avoids (.output o) := by
    intro width height
    unfold toPixelSize
    split
    · exact avoids_fatal _
    · exact avoids_pure _
  unfold pixelsOf
  split
  · refine (avoids_ofExcept Scaling.absolute_ne_output).bind fun width => ?_
    refine (avoids_ofExcept Scaling.absolute_ne_output).bind fun height => ?_
    refine (hfinite width height).bind fun finite => ?_
    split
    · exact (avoids_ofFaulty Value.roundHalfUp_ne_output).bind fun _ =>
        (avoids_ofFaulty Value.roundHalfUp_ne_output).bind fun _ => hsize _ _
    · exact (Scaling.described_avoids s).bind fun _ => avoids_fatal _
  · exact (Scaling.described_avoids s).bind fun _ => avoids_fatal _

/-- By induction on the script: each request avoids the fault, and so does what follows. -/
theorem runScript_avoids (hres : ∀ size real, (resolver size real).Avoids (.output o))
    {script : Script} (h : ¬script.Raises (.output o)) :
    (e.runScript resolver script).Avoids (.output o) := by
  induction script with
  | done answer => exact avoids_pure answer
  | fail fault =>
    refine avoids_fail ?_
    rintro rfl
    exact h .fail
  | elaborate size next ih =>
    exact (Size.canonical_avoids _ size).bind fun m => ih m fun hlater => h (.elaborate hlater)
  | normalize size next ih =>
    exact (Size.normalize_avoids _ _ size none).bind fun s => ih s fun hlater => h (.normalize hlater)
  | calculate size real next ih =>
    exact (hres size real).bind fun s => ih s fun hlater => h (.calculate hlater)
  | toPixels size real next ih =>
    exact (hres size real).bind fun s => (pixelsOf_avoids s real).bind fun p =>
      ih p fun hlater => h (.toPixels hlater)
  | apply policy size real next ih =>
    exact (policy.apply_avoids size real).bind fun s => ih s fun hlater => h (.apply hlater)

/-! ## Runs -/

theorem perform_avoids (hres : ∀ size real, (resolver size real).Avoids (.output o))
    (h : ¬e.Raises (.output o)) (step : Step) (size : SizeSpec) (real : RealDimension) :
    (e.perform resolver step size real).Avoids (.output o) := by
  unfold perform
  split
  · exact (Policy.apply_avoids _ size real).bind fun _ => avoids_pure _
  · exact runScript_avoids hres fun hraises => h ⟨_, size, real, hraises⟩

theorem limitReached_avoids (original : Mapping) (pending : Nat) :
    (e.limitReached original pending).Avoids (.output o) :=
  (avoids_ofFaulty Value.description?_ne_output).bind fun _ => nofun

theorem drain_avoids (hres : ∀ size real, (resolver size real).Avoids (.output o))
    (h : ¬e.Raises (.output o)) (real : RealDimension) (original : Mapping) (n : Nat)
    (s : SizeSpec) : (e.drain resolver real original n s).Avoids (.output o) := by
  induction n generalizing s with
  | zero =>
    unfold drain
    split
    · exact avoids_pure s
    · exact limitReached_avoids original _
  | succ n ih =>
    unfold drain
    split
    · exact avoids_pure s
    · exact (perform_avoids hres h _ _ real).bind fun _ =>
        (Size.normalize_avoids _ _ _ _).bind fun next => ih next

theorem calculateWith_avoids (hres : ∀ size real, (resolver size real).Avoids (.output o))
    (h : ¬e.Raises (.output o)) (size : Value) (real : RealDimension) :
    (e.calculateWith resolver size real).Avoids (.output o) :=
  (Size.normalize_avoids _ _ size none).bind fun s => drain_avoids hres h real s.original _ s

theorem resolveAt_avoids (h : ¬e.Raises (.output o)) (depth : Nat) :
    ∀ size real, (e.resolveAt depth size real).Avoids (.output o) := by
  induction depth with
  | zero => exact fun size real => avoids_fail nofun
  | succ depth ih => exact calculateWith_avoids ih h

/-- A size in pixels fails with a fault about an output only if a custom function raises it. -/
theorem toPixels_avoids (h : ¬e.Raises (.output o)) (size : Value) (real : RealDimension) :
    (e.toPixels size real).Avoids (.output o) :=
  (calculateWith_avoids (resolveAt_avoids h e.nesting) h size real).bind fun s =>
    pixelsOf_avoids s real

end Engine

/-! ## Ready-made functions -/

namespace Recipe

theorem not_raises_ofExcept {x : Except Fault Value} {f : Fault} (h : x ≠ .error f) :
    ¬(Script.ofExcept x).Raises f := by
  cases x with
  | ok v => nofun
  | error g =>
    rintro ⟨⟩
    exact h rfl

theorem not_raises (self : Callable) (recipe : Recipe) (s : SizeSpec) (real : RealDimension) :
    ¬(recipe.function self s real).Raises (.output o) := by
  cases recipe with
  | resize width height refs =>
    exact not_raises_ofExcept <| bind_ne_error Dimension.read_ne_output fun _ =>
      bind_ne_error Dimension.read_ne_output fun _ => pure_ne_error _
  | scale factor =>
    have hscale : ∀ d, scaleDimension factor d ≠ .error (.output o) := by
      intro d
      unfold scaleDimension
      split
      · exact bind_ne_error Value.times_ne_output fun _ => pure_ne_error _
      · exact pure_ne_error _
    exact not_raises_ofExcept <| bind_ne_error (hscale _) fun _ =>
      bind_ne_error (hscale _) fun _ => pure_ne_error _
  | grow amount limit =>
    refine not_raises_ofExcept ?_
    unfold growBy
    split
    · exact bind_ne_error Value.plus_ne_output fun _ =>
        bind_ne_error Value.isBelow_ne_output fun _ => pure_ne_error _
    · exact pure_ne_error _
  | normalize size =>
    intro h
    cases h with
    | normalize later => cases later
  | nested size =>
    intro h
    cases h with
    | toPixels later => cases later
  | apply policy =>
    intro h
    cases h with
    | apply later => cases later
  | _ => rintro ⟨⟩

end Recipe

theorem Engine.not_raises_of_recipes {e : Engine} {table : Array Recipe}
    (h : e.functions = Recipe.functions table) : ¬e.Raises (.output o) := by
  rintro ⟨c, s, real, hraises⟩
  rw [h] at hraises
  exact Recipe.not_raises c _ s real hraises

end ImageSizing
