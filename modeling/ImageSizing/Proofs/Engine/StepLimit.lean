import Mathlib.Algebra.Group.Int.Defs
import ImageSizing.Proofs.Engine.History
import ImageSizing.Proofs.Logged.Persists

/-!
# The step limit

What the limit on the number of steps means, measured against turns without any limit
(`Calculation.Turns`).  A calculation with limit `m` executes at most `m` steps.  It empties
its queue if that takes at most `m` turns; if `m` turns are possible and leave steps in the
queue it is stopped, and what it returns it returns under every larger limit
(`calculate_persists`), the answers of the calculations that its steps asked for included.

The error of a stopped calculation names the limit and the number of pending steps.  It is
raised only where the size can be described: a snapshot that holds a whole number beyond
the digit limit has no text, and then the attempt to describe it is what fails.
-/

namespace ImageSizing

/-! ## Engines that differ in their limit -/

def EngineConfig.withLimit (cfg : EngineConfig) (l : StepLimit) (h : 0 < l.steps) : EngineConfig :=
  { cfg with maxSteps := l, maxSteps_pos := h }

def Engine.withLimit (e : Engine) (l : StepLimit) (h : 0 < l.steps) : Engine :=
  { e with config := e.config.withLimit l h }

/-- No reference resolves differently under another limit. -/
theorem Size.resolveAll_withLimit (cfg : EngineConfig) (l : StepLimit) (h : 0 < l.steps)
    (r : Registry) (refs : List Value) :
    resolveAll (cfg.withLimit l h) r refs = resolveAll cfg r refs := by
  induction refs with
  | nil => rfl
  | cons ref refs ih =>
    rw [resolveAll_cons, resolveAll_cons, ih]
    rfl

theorem Size.normalize_withLimit (cfg : EngineConfig) (l : StepLimit) (h : 0 < l.steps)
    (r : Registry) (size : Value) (pinned : Option Mapping) :
    normalize (cfg.withLimit l h) r size pinned = normalize cfg r size pinned := by
  have hspec : ∀ width height functions original extras,
      normalizeSpec (cfg.withLimit l h) r width height functions original extras =
        normalizeSpec cfg r width height functions original extras := by
    intro width height functions original extras
    unfold normalizeSpec
    rw [resolveAll_withLimit]
    rfl
  have hcanonical : ∀ m,
      normalizeCanonical (cfg.withLimit l h) r m = normalizeCanonical cfg r m := by
    intro m
    simp only [normalizeCanonical, resolveAll_withLimit]
    rfl
  cases size <;> simp only [normalize, hspec, hcanonical] <;> rfl

namespace Engine

/-! ## Larger limits -/

section Larger

variable {e : Engine} {l : StepLimit} {h : 0 < l.steps}

theorem normalize_withLimit (size : Value) :
    (e.withLimit l h).normalize size = e.normalize size :=
  Size.normalize_withLimit e.config l h e.registry size none

theorem renormalize_withLimit (original : Mapping) (size : Value) :
    (e.withLimit l h).renormalize original size = e.renormalize original size :=
  Size.normalize_withLimit e.config l h e.registry size (some original)

/-- A custom function returns under another limit what it returned, provided that the
calculations it asks for do. -/
theorem runScript_persists {res res' : Resolver}
    (hres : ∀ size real, (res size real).Persists (res' size real)) (script : Script) :
    (e.runScript res script).Persists ((e.withLimit l h).runScript res' script) := by
  induction script with
  | done answer => exact .refl _
  | fail fault => exact .refl _
  | elaborate size next ih => exact .bind (.refl _) ih
  | normalize size next ih =>
    refine .bind ?_ ih
    rw [normalize_withLimit]
    exact .refl _
  | calculate size real next ih => exact .bind (hres size real) ih
  | toPixels size real next ih =>
    exact .bind (hres size real) fun s => .bind (.refl _) ih
  | apply policy size real next ih => exact .bind (.refl _) ih

theorem perform_persists {res res' : Resolver}
    (hres : ∀ size real, (res size real).Persists (res' size real)) (step : Step)
    (size : SizeSpec) (real : RealDimension) :
    (e.perform res step size real).Persists ((e.withLimit l h).perform res' step size real) := by
  unfold perform
  cases step.action with
  | builtIn p => exact .refl _
  | custom c => exact runScript_persists hres _

/-- A run that empties its queue does so, in the same way, with more steps to go. -/
theorem drain_persists {res res' : Resolver}
    (hres : ∀ size real, (res size real).Persists (res' size real)) (real : RealDimension)
    (original : Mapping) {m n : Nat} (hmn : m ≤ n) (s : SizeSpec) :
    (e.drain res real original m s).Persists ((e.withLimit l h).drain res' real original n s) := by
  induction m generalizing n s with
  | zero =>
    cases hq : s.queue with
    | nil =>
      rw [drain_nil hq, drain_nil hq]
      exact .refl _
    | cons step rest =>
      rw [drain_zero hq]
      obtain ⟨f, hf⟩ := e.limitReached_fails original s.queue.length
      exact .of_error hf _
  | succ m ih =>
    obtain ⟨n, rfl⟩ : ∃ k, n = k + 1 := ⟨n - 1, by omega⟩
    cases hq : s.queue with
    | nil =>
      rw [drain_nil hq, drain_nil hq]
      exact .refl _
    | cons step rest =>
      rw [drain_cons hq, drain_cons hq]
      refine .bind (perform_persists hres step _ real) fun answer => .bind ?_ fun next => ?_
      · rw [renormalize_withLimit]
        exact .refl _
      · exact ih (by omega) next

theorem calculateWith_persists {res res' : Resolver}
    (hres : ∀ size real, (res size real).Persists (res' size real))
    (hl : e.config.maxSteps.steps ≤ l.steps) (size : Value) (real : RealDimension) :
    (e.calculateWith res size real).Persists ((e.withLimit l h).calculateWith res' size real) := by
  unfold calculateWith
  refine .bind ?_ fun s => drain_persists hres real s.original hl s
  rw [normalize_withLimit]
  exact .refl _

theorem resolveAt_persists (hl : e.config.maxSteps.steps ≤ l.steps) (depth : Nat) :
    ∀ size real, (e.resolveAt depth size real).Persists ((e.withLimit l h).resolveAt depth size real) := by
  induction depth with
  | zero => exact fun size real => .refl _
  | succ depth ih => exact fun size real => calculateWith_persists ih hl size real

/-- What a calculation returns under one limit it returns under every larger one. -/
theorem calculate_persists (hl : e.config.maxSteps.steps ≤ l.steps) (size : Value)
    (real : RealDimension) :
    (e.calculate size real).Persists ((e.withLimit l h).calculate size real) :=
  calculateWith_persists (resolveAt_persists hl e.nesting) hl size real

end Larger

/-! ## What the limit means -/

/-- A queue that is emptied within the limit is a success. -/
theorem calculate_of_emptied {e : Engine} {size : Value} {real : RealDimension} {s t : SizeSpec}
    {us : List Turn} {l : List LogEntry} (hs : (e.normalize size).result = .ok s)
    (h : (e.calculation real s).Turns s us l t) (hlen : us.length ≤ e.config.maxSteps.steps)
    (ht : t.queue = []) :
    e.calculate size real = ⟨(e.normalize size).entries ++ l, .ok t⟩ := by
  rw [calculate_of_normalize real hs, historyOf, h.history_emptied ht hlen]
  rfl

/-- A queue with steps in it at the limit is the failure at the limit. -/
theorem calculate_of_stopped {e : Engine} {size : Value} {real : RealDimension} {s t : SizeSpec}
    {us : List Turn} {l : List LogEntry} (hs : (e.normalize size).result = .ok s)
    (h : (e.calculation real s).Turns s us l t) (hlen : us.length = e.config.maxSteps.steps)
    (ht : t.queue ≠ []) :
    e.calculate size real =
      ⟨(e.normalize size).entries ++ (l ++ (e.limitReached s.original t.queue.length).entries),
        (e.limitReached s.original t.queue.length).result⟩ := by
  rw [calculate_of_normalize real hs, historyOf, ← hlen, h.history_stopped ht]
  rfl

/-- A size without a normal form runs no step. -/
theorem calculate_of_unnormalized {e : Engine} {size : Value} (real : RealDimension) {f : Failure}
    (hf : (e.normalize size).result = .error f) :
    e.calculate size real = ⟨(e.normalize size).entries, .error f⟩ := by
  rw [calculate_eq_outcome, Logged.bind_error _ hf]

/-- The exact meaning of the step limit `m`.  A size without a normal form runs no step.  For one
with a normal form, no more than `m` steps are executed; the error of the limit is raised
exactly when `m` turns are possible, leave steps in the queue, and the snapshot can be
described; where it cannot, the fault of describing it comes instead; and a queue that `m`
turns or fewer empty is a success.  A success is the same under every larger limit. -/
theorem calculate_stepLimit (e : Engine) (size : Value) (real : RealDimension) :
    let m := e.config.maxSteps.steps
    (∀ f, (e.normalize size).result = .error f →
      e.calculate size real = ⟨(e.normalize size).entries, .error f⟩) ∧
    (∀ s, (e.normalize size).result = .ok s →
      let c := e.calculation real s
      let h := e.historyOf real s
      e.calculate size real =
        ⟨(e.normalize size).entries ++ (h.outcome c).entries, (h.outcome c).result⟩ ∧
      h.executed.length ≤ m ∧
      (∀ pending,
        (∃ t, h.ending = .stopped t ∧ t.queue.length = pending ∧
          (e.calculate size real).result =
            .error (.sizing (.stepLimit e.config.maxSteps pending))) ↔
        (∃ us l t, c.Turns s us l t ∧ us.length = m ∧ t.queue ≠ [] ∧ t.queue.length = pending) ∧
          describable s.original = true) ∧
      (∀ us l t, c.Turns s us l t → us.length = m → t.queue ≠ [] →
        describable s.original = false →
        e.calculate size real = ⟨(e.normalize size).entries ++ l, .error (.fault .numberTooLong)⟩) ∧
      ∀ us l t, c.Turns s us l t → us.length ≤ m → t.queue = [] →
        e.calculate size real = ⟨(e.normalize size).entries ++ l, .ok t⟩) ∧
    ∀ (limit : StepLimit) (hl : 0 < limit.steps), m ≤ limit.steps →
      ∀ t, (e.calculate size real).result = .ok t →
        (e.withLimit limit hl).calculate size real = e.calculate size real := by
  intro m
  refine ⟨fun f hf => calculate_of_unnormalized real hf, ?_, ?_⟩
  · intro s hs c h
    refine ⟨calculate_of_normalize real hs, c.executed_length_le m s, ?_, ?_, ?_⟩
    · intro pending
      constructor
      · rintro ⟨t, ht, rfl, hr⟩
        obtain ⟨us, l, hts, hlen, hq⟩ := (c.history_stopped_iff m s t).1 ht
        refine ⟨⟨us, l, t, hts, hlen, hq, rfl⟩, ?_⟩
        cases hd : describable s.original with
        | true => rfl
        | false =>
          rw [calculate_of_stopped hs hts hlen hq, limitReached_undescribable e _ hd] at hr
          cases hr
      · rintro ⟨⟨us, l, t, hts, hlen, hq, rfl⟩, hd⟩
        refine ⟨t, (c.history_stopped_iff m s t).2 ⟨us, l, hts, hlen, hq⟩, rfl, ?_⟩
        rw [calculate_of_stopped hs hts hlen hq, limitReached_describable e _ hd]
    · intro us l t hts hlen hq hd
      rw [calculate_of_stopped hs hts hlen hq, limitReached_undescribable e _ hd, List.append_nil]
    · intro us l t hts hlen hq
      exact calculate_of_emptied hs hts hlen hq
  · intro limit hl hm t ht
    exact calculate_persists hm size real t ht

/-! ## A size that cannot be described -/

def ofOneStep : Engine :=
  { config := { EngineConfig.standard with maxSteps := .count 1, maxSteps_pos := by decide } }

/-- Two checks, and a note that has no text. -/
def undescribableSize : Mapping :=
  [(.str "function", .list [.str "check", .str "check"]), (.str "note", .int (10 ^ 4300)),
    (.str "width", .dim .pixel (.int 10))]

/-- What normalizing that size gives, with checks that are still to run. -/
def undescribableSpec (queue : List Step) : SizeSpec :=
  ⟨.pixel (.int 10), .unspecified, queue, undescribableSize, [(.str "note", .int (10 ^ 4300))]⟩

def fourByFour : RealDimension := ⟨.int 4, .int 4, by decide, by decide⟩

/-- The limit is reached after one of the two checks, and the fault of describing the size takes
the place of the error of the limit; nothing is logged. -/
theorem calculate_stepLimit_undescribable :
    (ofOneStep.normalize (.map undescribableSize)).result =
      .ok (undescribableSpec [.ofPolicy .check, .ofPolicy .check]) ∧
    ofOneStep.calculate (.map undescribableSize) fourByFour =
      ⟨[], .error (.fault .numberTooLong)⟩ := by
  have hs : (ofOneStep.normalize (.map undescribableSize)).result =
      .ok (undescribableSpec [.ofPolicy .check, .ofPolicy .check]) := rfl
  have hturn : (ofOneStep.calculation fourByFour (undescribableSpec
      [.ofPolicy .check, .ofPolicy .check])).Turns
      (undescribableSpec [.ofPolicy .check, .ofPolicy .check]) _ _
      (undescribableSpec [.ofPolicy .check]) := .cons rfl rfl (.nil _)
  have hd : describable undescribableSize = false := by decide +kernel
  have hlimit := (calculate_stepLimit ofOneStep (.map undescribableSize) fourByFour).2.1 _ hs
  exact ⟨hs, hlimit.2.2.2.1 _ _ _ hturn rfl (List.cons_ne_nil _ _) hd⟩

end Engine

end ImageSizing
