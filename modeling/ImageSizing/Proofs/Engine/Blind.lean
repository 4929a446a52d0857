import ImageSizing.Engine.Recipe
import ImageSizing.Proofs.Engine.FunctionWarnings

/-!
# Steps that do not look at the snapshot

A step is blind if another snapshot in its place makes no difference but in the texts of errors: it
writes the same warnings, and answers the same up to the snapshot or fails with an error of the same
class.  Only snapshots are compared that agree on the axes, and of which both or none can be
described (`Mapping.Resembles`); policies show these in their messages and nothing else
(`apply_withOriginal`).  All ready-made functions are blind but the one that answers with an entry of
the snapshot (`blind_recipe`).
-/

namespace ImageSizing

open Logged

namespace Scaling

variable {s : SizeSpec} {original : Mapping}

theorem shown_withOriginal (h : s.original.Resembles original) {key : String}
    (hkey : key = "width" ∨ key = "height") : shown (s.withOriginal original) key = shown s key := by
  have hget : original.get key = s.original.get key := by
    rcases hkey with rfl | rfl
    · exact h.width
    · exact h.height
  unfold shown
  exact congrArg (fun v => ofFaulty (Value.display? v)) hget

/-- An error that describes the snapshot. -/
theorem fatal_described {γ δ : Type} {R : γ → δ → Prop} {t : SizeSpec} (err : String → SizingError)
    (h : Engine.describable t.original = Engine.describable s.original)
    (hkind : ∀ d d', (err d).kind = (err d').kind) :
    Alike R (described s >>= fun d => fatal (err d)) (described t >>= fun d => fatal (err d)) := by
  unfold described Value.description?
  show Alike R (ofFaulty (if Engine.describable s.original = true then _ else _) >>= _)
    (ofFaulty (if Engine.describable t.original = true then _ else _) >>= _)
  rw [h]
  cases Engine.describable s.original with
  | true => exact .fatal (hkind _ _)
  | false => exact .fail (.refl _)

theorem dropInvalidHeight_withOriginal (h : s.original.Resembles original) :
    Alike (fun t t' => t.original = s.original ∧ t' = t.withOriginal original) (dropInvalidHeight s)
      (dropInvalidHeight (s.withOriginal original)) := by
  unfold dropInvalidHeight
  rw [shown_withOriginal h (.inr rfl)]
  show Alike _ (if s.height.unit = .invalid then _ else _) (if s.height.unit = .invalid then _ else _)
  split
  · refine Alike.bind (R := Eq) (.refl _ fun _ _ => rfl) ?_
    rintro shown _ rfl
    exact Alike.bind (R := fun _ _ => True) (.refl _ fun _ _ => trivial) fun _ _ _ => .pure ⟨rfl, rfl⟩
  · exact .pure ⟨rfl, rfl⟩

theorem validate_withOriginal (h : s.original.Resembles original) :
    Alike (fun t t' => t.original = s.original ∧ t' = t.withOriginal original) (validate s)
      (validate (s.withOriginal original)) := by
  unfold validate
  rw [shown_withOriginal h (.inl rfl)]
  show Alike _ (if s.width.unit = .invalid then _ else _) (if s.width.unit = .invalid then _ else _)
  split
  · refine Alike.bind (R := Eq) (.refl _ fun _ _ => rfl) ?_
    rintro shown _ rfl
    exact .fatal rfl
  · refine (dropInvalidHeight_withOriginal h).bind ?_
    rintro t t' ⟨ht, rfl⟩
    show Alike _ (if (t.width.isSpecified || t.height.isSpecified) = true then _ else _)
      (if (t.width.isSpecified || t.height.isSpecified) = true then _ else _)
    split
    · exact .pure ⟨ht, rfl⟩
    · refine fatal_described .nothingSpecified ?_ fun _ _ => rfl
      rw [ht]
      exact h.describable

/-- A sequence with a function applied to its result. -/
theorem bind_eq_map_bind {ε α β : Type} {x : Except ε α} {f g : α → Except ε β} {k : β → β}
    (h : ∀ a, g a = (f a).map k) : x >>= g = (x >>= f).map k := by
  cases x with
  | error e => rfl
  | ok a => exact h a

theorem inferMissing_withOriginal (s : SizeSpec) (original : Mapping) (real : RealDimension) :
    inferMissing (s.withOriginal original) real =
      (inferMissing s real).map (·.withOriginal original) := by
  rw [inferMissing_eq, inferMissing_eq]
  exact bind_eq_map_bind fun width => bind_eq_map_bind fun height => rfl

theorem scaleBoth_withOriginal (c : Choice) (s : SizeSpec) (original : Mapping) (real : RealDimension) :
    scaleBoth c (s.withOriginal original) real =
      (scaleBoth c s real).map (·.withOriginal original) := by
  unfold scaleBoth
  rw [inferMissing_withOriginal]
  cases inferMissing s real with
  | error f => rfl
  | ok t =>
    show (relative t.height (.ofNumber real.height) >>= fun h => _) =
      Except.map _ (relative t.height (.ofNumber real.height) >>= fun h => _)
    exact bind_eq_map_bind fun h => bind_eq_map_bind fun w => bind_eq_map_bind fun f => rfl

/-- Of the snapshot a policy uses no more than the axes, for messages, and a description. -/
theorem apply_withOriginal (p : Policy) (real : RealDimension) (h : s.original.Resembles original) :
    Alike (fun t t' => t' = t.withOriginal original) (p.apply s real)
      (p.apply (s.withOriginal original) real) := by
  have hscale : ∀ c : Choice, Alike (fun t t' => t' = t.withOriginal original)
      (validate s >>= fun t => ofExcept (scaleBoth c t real))
      (validate (s.withOriginal original) >>= fun t => ofExcept (scaleBoth c t real)) := by
    intro c
    refine (validate_withOriginal h).bind ?_
    rintro t t' ⟨-, rfl⟩
    rw [scaleBoth_withOriginal]
    cases scaleBoth c t real with
    | ok u => exact .pure rfl
    | error f => exact .fail (.refl f)
  cases p with
  | contain => exact hscale .smaller
  | cover => exact hscale .larger
  | check =>
    obtain ⟨hlog, hend⟩ := validate_withOriginal h
    exact ⟨hlog, hend.imp fun t t' ht => ht.2⟩
  | exact =>
    refine (validate_withOriginal h).bind ?_
    rintro t t' ⟨ht, rfl⟩
    show Alike _ (if (t.width.isSpecified && t.height.isSpecified) = true then _ else _)
      (if (t.width.isSpecified && t.height.isSpecified) = true then _ else _)
    split
    · exact .pure rfl
    · refine fatal_described .exactNeedsBoth ?_ fun _ _ => rfl
      rw [ht]
      exact h.describable

end Scaling

/-- A value with another snapshot, if it is a specification. -/
def Value.withOriginal (original : Mapping) : Value → Value
  | .spec w h fs _ x => .spec w h fs original x
  | v => v

/-- Equal values up to the snapshot of a specification. -/
def Value.SameButSnapshot (v v' : Value) : Prop := v.withOriginal [] = v'.withOriginal []

namespace Calculation

variable {c : Calculation} {step : Step} {given : SizeSpec}

/-- Another snapshot makes no difference to a step but in the texts of errors. -/
def Blind (c : Calculation) (step : Step) (given : SizeSpec) : Prop :=
  ∀ original, given.original.Resembles original →
    Alike Value.SameButSnapshot (c.performs step given) (c.performs step (given.withOriginal original))

theorem blind_apply (p : Policy) (real : RealDimension) {s : SizeSpec} {original : Mapping}
    (h : s.original.Resembles original) :
    Alike Value.SameButSnapshot (p.apply s real >>= fun t => pure t.toValue)
      (p.apply (s.withOriginal original) real >>= fun t => pure t.toValue) := by
  refine (Scaling.apply_withOriginal p real h).bind ?_
  rintro t _ rfl
  exact .pure rfl

theorem blind_builtIn (c : Calculation) (h : step.runsPolicy = true) (given : SizeSpec) :
    c.Blind step given := by
  intro original hlike
  obtain ⟨p, haction⟩ := Step.exists_policy h
  have hperforms : ∀ s, c.performs step s = p.apply s c.real >>= fun t => pure t.toValue := by
    intro s
    unfold performs Engine.perform
    rw [haction]
  rw [hperforms, hperforms]
  exact blind_apply p c.real hlike

/-- Scripts that end at once, alike. -/
theorem alike_ofExcept {x y : Except Fault Value}
    (h : x.map (Value.withOriginal []) = y.map (Value.withOriginal [])) :
    Alike Value.SameButSnapshot (c.engine.runScript c.resolver (.ofExcept x))
      (c.engine.runScript c.resolver (.ofExcept y)) := by
  cases x with
  | error f =>
    cases y with
    | error f' =>
      cases h
      exact .fail (.refl _)
    | ok b => cases h
  | ok a =>
    cases y with
    | error f' => cases h
    | ok b => exact .pure (Except.ok.inj h)

theorem resizeTo_withOriginal (width height : Value) (refs : List Value) (s : SizeSpec)
    (original : Mapping) :
    (Recipe.resizeTo width height refs s).map (Value.withOriginal []) =
      (Recipe.resizeTo width height refs (s.withOriginal original)).map (Value.withOriginal []) := by
  unfold Recipe.resizeTo
  cases Dimension.read .standard width with
  | error f => rfl
  | ok w => cases Dimension.read .standard height <;> rfl

theorem scaleSize_withOriginal (factor : Value) (s : SizeSpec) (original : Mapping) :
    (Recipe.scaleSize factor s).map (Value.withOriginal []) =
      (Recipe.scaleSize factor (s.withOriginal original)).map (Value.withOriginal []) := by
  show Except.map _ (Recipe.scaleDimension factor s.width >>= fun w => _) =
    Except.map _ (Recipe.scaleDimension factor s.width >>= fun w => _)
  cases Recipe.scaleDimension factor s.width with
  | error f => rfl
  | ok w =>
    show Except.map _ (Recipe.scaleDimension factor s.height >>= fun h => _) =
      Except.map _ (Recipe.scaleDimension factor s.height >>= fun h => _)
    cases Recipe.scaleDimension factor s.height <;> rfl

theorem growBy_withOriginal (self : Callable) (amount limit : Value) (s : SizeSpec)
    (original : Mapping) :
    (Recipe.growBy self amount limit s).map (Value.withOriginal []) =
      (Recipe.growBy self amount limit (s.withOriginal original)).map (Value.withOriginal []) := by
  show Except.map _ (if s.width.isConcrete = true then _ else _) =
    Except.map _ (if s.width.isConcrete = true then _ else _)
  split
  · show Except.map _ (s.width.value.plus amount >>= fun sum => _) =
      Except.map _ (s.width.value.plus amount >>= fun sum => _)
    cases s.width.value.plus amount with
    | error f => rfl
    | ok sum =>
      show Except.map _ (sum.isBelow limit >>= fun below => _) =
        Except.map _ (sum.isBelow limit >>= fun below => _)
      cases sum.isBelow limit with
      | error f => rfl
      | ok below => cases below <;> rfl
  · rfl

/-- The ready-made functions are blind, unless they answer with an entry of the snapshot. -/
theorem blind_recipe {f : Callable} {recipe : Recipe} (haction : step.action = .custom f)
    (hf : c.engine.functions f = recipe.function f) (hne : ∀ key, recipe ≠ .original key)
    (given : SizeSpec) : c.Blind step given := by
  intro original hlike
  have hperforms : ∀ s, c.performs step s =
      c.engine.runScript c.resolver (recipe.function f s c.real) := by
    intro s
    unfold performs Engine.perform
    rw [haction, ← hf]
  rw [hperforms, hperforms]
  cases recipe with
  | original key => exact absurd rfl (hne key)
  | nothing | answer _ | andThen _ | swap | fillReal | extra _ | clear => exact .pure rfl
  | raise m => exact .fail (.refl _)
  | normalize size => exact .refl _ fun _ _ => rfl
  | nested size => exact .refl _ fun _ _ => rfl
  | apply p => exact blind_apply p c.real hlike
  | resize w h refs => exact alike_ofExcept (resizeTo_withOriginal w h refs given original)
  | scale factor => exact alike_ofExcept (scaleSize_withOriginal factor given original)
  | grow amount limit => exact alike_ofExcept (growBy_withOriginal f amount limit given original)

end Calculation

end ImageSizing
