import ImageSizing.Proofs.Engine.History
import ImageSizing.Proofs.Scaling.Frame
import ImageSizing.Proofs.Scaling.Policies

/-!
# Queues of built-in steps

A queue of policies has a closed form, however long it is.  The first step validates the
size.  Checks then change nothing, and `exact` insists on both axes until the first
`contain` or `cover` gives both axes one factor; from there on nothing changes any more.

    exactFirst ps   : an `exact` comes before any `contain` and `cover`
    firstChoice? ps : which of the two comes first, if one comes at all
-/

namespace ImageSizing

namespace Policy

def choice? : Policy → Option Scaling.Choice
  | contain => some .smaller
  | cover => some .larger
  | _ => none

/-- The choice of the first policy that scales. -/
def firstChoice? (ps : List Policy) : Option Scaling.Choice := ps.findSome? choice?

/-- Whether `exact` comes before any policy that scales. -/
def exactFirst (ps : List Policy) : Bool :=
  (ps.takeWhile fun p => p.choice?.isNone).contains .exact

theorem policy_of_choice? {p : Policy} {c : Scaling.Choice} (h : p.choice? = some c) :
    c.policy = p := by
  cases p with
  | contain =>
    cases h
    rfl
  | cover =>
    cases h
    rfl
  | exact => cases h
  | check => cases h

theorem firstChoice?_cons_of_some {p : Policy} {c : Scaling.Choice} (h : p.choice? = some c)
    (ps : List Policy) : firstChoice? (p :: ps) = some c := by
  unfold firstChoice?
  rw [List.findSome?_cons, h]

theorem exactFirst_cons_of_some {p : Policy} {c : Scaling.Choice} (h : p.choice? = some c)
    (ps : List Policy) : exactFirst (p :: ps) = false := by
  unfold exactFirst
  rw [List.takeWhile_cons, if_neg (by simp [h])]
  rfl

theorem exactFirst_cons_exact (ps : List Policy) : exactFirst (.exact :: ps) = true := rfl

end Policy

/-- Steps that are the given policies. -/
def RunsOnly (queue : List Step) (ps : List Policy) : Prop :=
  queue.map Step.action = ps.map .builtIn

theorem runsOnly_cons {queue : List Step} {p : Policy} {ps : List Policy}
    (h : RunsOnly queue (p :: ps)) :
    ∃ step rest, queue = step :: rest ∧ step.action = .builtIn p ∧ RunsOnly rest ps := by
  cases queue with
  | nil => cases h
  | cons step rest => exact ⟨step, rest, rfl, (List.cons.inj h).1, (List.cons.inj h).2⟩

namespace Engine

section Run

variable {e : Engine} {res : Resolver} {real : RealDimension} {original : Mapping}

/-- What a policy answers is what the run goes on with. -/
theorem drain_builtIn {s t : SizeSpec} {step : Step} {rest : List Step} {p : Policy}
    {l : List LogEntry} (front : s.queue = step :: rest) (haction : step.action = .builtIn p)
    (happly : p.apply (s.withQueue rest) real = ⟨l, .ok t⟩) (ht : t.original = original) (n : Nat) :
    e.drain res real original (n + 1) s =
      ⟨l ++ (e.drain res real original n t).entries, (e.drain res real original n t).result⟩ := by
  have hperform : e.perform res step (s.withQueue rest) real = ⟨l, .ok t.toValue⟩ := by
    unfold perform
    rw [haction]
    dsimp only
    rw [happly]
    show (⟨l ++ [], .ok t.toValue⟩ : Logged Value) = _
    rw [List.append_nil]
  have hagain : e.renormalize original (answerOr t.toValue (s.withQueue rest)) = pure t := by
    show Size.normalize e.config e.registry t.toValue (some original) = _
    rw [Size.normalize_toValue, ← ht]
    rfl
  rw [drain_cons front, hperform, Logged.bind_ok _ rfl, hagain, Logged.pure_bind]

theorem drain_builtIn_failed {s : SizeSpec} {step : Step} {rest : List Step} {p : Policy}
    {l : List LogEntry} {f : Failure} (front : s.queue = step :: rest)
    (haction : step.action = .builtIn p)
    (happly : p.apply (s.withQueue rest) real = ⟨l, .error f⟩) (n : Nat) :
    e.drain res real original (n + 1) s = ⟨l, .error f⟩ := by
  have hperform : e.perform res step (s.withQueue rest) real = ⟨l, .error f⟩ := by
    unfold perform
    rw [haction]
    dsimp only
    rw [happly]
    rfl
  rw [drain_cons front, hperform, Logged.bind_error _ rfl]

/-- A policy that answers without a word does not show in the log. -/
theorem drain_builtIn_pure {s t : SizeSpec} {step : Step} {rest : List Step} {p : Policy}
    (front : s.queue = step :: rest) (haction : step.action = .builtIn p)
    (happly : p.apply (s.withQueue rest) real = pure t) (ht : t.original = original) (n : Nat) :
    e.drain res real original (n + 1) s = e.drain res real original n t := by
  rw [drain_builtIn front haction happly ht]
  rfl

/-- On one factor for both axes a queue of policies does nothing but run out. -/
theorem drain_uniform {ps : List Policy} {s : SizeSpec} {f : Binary64} {n : Nat}
    (hq : RunsOnly s.queue ps) (hn : ps.length ≤ n) (hw : s.width = .factor f)
    (hh : s.height = .factor f) (hprint : Value.printableEntries s.original = true)
    (ho : s.original = original) : e.drain res real original n s = pure (s.withQueue []) := by
  induction ps generalizing s n with
  | nil =>
    have hnil : s.queue = [] := List.map_eq_nil_iff.1 hq
    rw [drain_nil hnil, ← hnil]
    rfl
  | cons p ps ih =>
    obtain ⟨step, rest, front, haction, hrest⟩ := runsOnly_cons hq
    obtain ⟨n, rfl⟩ : ∃ k, n = k + 1 := ⟨n - 1, by simp at hn; omega⟩
    have happly : p.apply (s.withQueue rest) real = pure (s.withQueue rest) :=
      Scaling.apply_uniform (s := s.withQueue rest) hw hh hprint p real
    rw [drain_builtIn_pure front haction happly ho]
    exact ih (s := s.withQueue rest) hrest (Nat.le_of_succ_le_succ hn) hw hh hprint ho

/-- A size at the end of a queue of policies: as it is, or with one factor for both axes. -/
def passed (ps : List Policy) (s : SizeSpec) (factor : Scaling.Choice → Binary64) : SizeSpec :=
  match Policy.firstChoice? ps with
  | none => s.withQueue []
  | some c => (s.withSize (.factor (factor c)) (.factor (factor c))).withQueue []

/-- What a queue of policies makes of a size that validation accepts. -/
def settled (ps : List Policy) (s : SizeSpec) (factor : Scaling.Choice → Binary64) :
    Logged SizeSpec :=
  if (Policy.exactFirst ps && !Scaling.bothGiven s.width s.height) = true then
    ⟨[.error s.exactError.message], .error (.sizing s.exactError)⟩
  else pure (passed ps s factor)

theorem settled_withQueue (ps : List Policy) (s : SizeSpec) (queue : List Step)
    (factor : Scaling.Choice → Binary64) :
    settled ps (s.withQueue queue) factor = settled ps s factor := rfl

theorem settled_scaling {p : Policy} {c : Scaling.Choice} (h : p.choice? = some c)
    (ps : List Policy) (s : SizeSpec) (factor : Scaling.Choice → Binary64) :
    settled (p :: ps) s factor =
      pure ((s.withSize (.factor (factor c)) (.factor (factor c))).withQueue []) := by
  unfold settled passed
  rw [Policy.exactFirst_cons_of_some h, Policy.firstChoice?_cons_of_some h]
  rfl

theorem settled_check (ps : List Policy) (s : SizeSpec) (factor : Scaling.Choice → Binary64) :
    settled (.check :: ps) s factor = settled ps s factor := rfl

theorem settled_exact (ps : List Policy) (s : SizeSpec) (factor : Scaling.Choice → Binary64) :
    settled (.exact :: ps) s factor =
      if Scaling.bothGiven s.width s.height = true then settled ps s factor
      else ⟨[.error s.exactError.message], .error (.sizing s.exactError)⟩ := by
  unfold settled
  cases hboth : Scaling.bothGiven s.width s.height with
  | true =>
    rw [Bool.not_true, Bool.and_false, Bool.and_false]
    rfl
  | false =>
    rw [Policy.exactFirst_cons_exact]
    rfl

/-- Once a policy has scaled, the policies after it have nothing left to do. -/
theorem drain_scaling {ps : List Policy} {s : SizeSpec} {step : Step} {rest : List Step}
    {p : Policy} {c : Scaling.Choice} {f : Binary64} {w h : Number} {n : Nat} (hs : s.Accepted)
    (front : s.queue = step :: rest) (haction : step.action = .builtIn p)
    (hc : p.choice? = some c) (hrest : RunsOnly rest ps) (hn : ps.length ≤ n)
    (hshares : Scaling.shares? s.width s.height real = some (w, h))
    (hf : (c.pick h w).toBinary64 = .ok f) (ho : s.original = original) :
    e.drain res real original (n + 1) s =
      pure ((s.withSize (.factor f) (.factor f)).withQueue []) := by
  have happly := Scaling.scale_accepted (hs.withQueue rest) c hshares hf
  rw [Policy.policy_of_choice? hc] at happly
  rw [drain_builtIn_pure front haction happly ho]
  exact drain_uniform (s := (s.withQueue rest).withSize (.factor f) (.factor f))
    hrest hn rfl rfl hs.original ho

theorem drain_accepted {ps : List Policy} {s : SizeSpec} {w h : Number}
    {factor : Scaling.Choice → Binary64} {n : Nat} (hs : s.Accepted) (hq : RunsOnly s.queue ps)
    (hn : ps.length ≤ n) (hshares : Scaling.shares? s.width s.height real = some (w, h))
    (hf : ∀ c : Scaling.Choice, (c.pick h w).toBinary64 = .ok (factor c))
    (ho : s.original = original) : e.drain res real original n s = settled ps s factor := by
  induction ps generalizing s n with
  | nil =>
    have hnil : s.queue = [] := List.map_eq_nil_iff.1 hq
    rw [drain_nil hnil]
    show pure s = (pure (s.withQueue []) : Logged SizeSpec)
    rw [← hnil]
    rfl
  | cons p ps ih =>
    obtain ⟨step, rest, front, haction, hrest⟩ := runsOnly_cons hq
    obtain ⟨n, rfl⟩ : ∃ k, n = k + 1 := ⟨n - 1, by simp at hn; omega⟩
    have hn' : ps.length ≤ n := Nat.le_of_succ_le_succ hn
    cases hc : p.choice? with
    | some c => rw [drain_scaling hs front haction hc hrest hn' hshares (hf c) ho, settled_scaling hc]
    | none =>
      have hlater := ih (s := s.withQueue rest) (hs.withQueue rest) hrest hn' hshares ho
      rw [settled_withQueue] at hlater
      cases p with
      | contain => cases hc
      | cover => cases hc
      | check =>
        have happly := Scaling.check_accepted (hs.withQueue rest) real
        rw [drain_builtIn_pure front haction happly ho, hlater, settled_check]
      | exact =>
        have happly := Scaling.exact_accepted (hs.withQueue rest) real
        rw [settled_exact]
        split at happly
        · rename_i hboth
          rw [drain_builtIn_pure front haction happly ho, hlater]
          exact (if_pos hboth).symm
        · rename_i hmissing
          rw [drain_builtIn_failed front haction happly]
          exact (if_neg hmissing).symm

/-- A size that validation rejects is rejected by the first policy, whichever it is. -/
theorem drain_rejected {ps : List Policy} {s : SizeSpec} {n : Nat} {l : List LogEntry} {f : Failure}
    (hq : RunsOnly s.queue ps) (hne : ps ≠ []) (hn : ps.length ≤ n)
    (hv : ∀ queue, Scaling.validate (s.withQueue queue) = ⟨l, .error f⟩) :
    e.drain res real original n s = ⟨l, .error f⟩ := by
  cases ps with
  | nil => exact absurd rfl hne
  | cons p ps =>
    obtain ⟨step, rest, front, haction, hrest⟩ := runsOnly_cons hq
    obtain ⟨n, rfl⟩ : ∃ k, n = k + 1 := ⟨n - 1, by simp at hn; omega⟩
    exact drain_builtIn_failed front haction (Scaling.apply_of_rejected (hv rest) p real) n

/-- A size that validation accepts goes on as what validation makes of it. -/
theorem drain_validated {ps : List Policy} {s : SizeSpec} {n : Nat} (hs : s.Ready)
    (hq : RunsOnly s.queue ps) (hne : ps ≠ []) (hn : ps.length ≤ n) (hw : s.width.unit ≠ .invalid)
    (hgiven : (s.width.isSpecified || s.height.orUnspecified.isSpecified) = true)
    (ho : s.original = original) :
    e.drain res real original n s =
      ⟨s.heightWarning ++ (e.drain res real original n s.withoutInvalid).entries,
        (e.drain res real original n s.withoutInvalid).result⟩ := by
  cases ps with
  | nil => exact absurd rfl hne
  | cons p ps =>
    obtain ⟨step, rest, front, haction, hrest⟩ := runsOnly_cons hq
    obtain ⟨n, rfl⟩ : ∃ k, n = k + 1 := ⟨n - 1, by simp at hn; omega⟩
    have hfirst := Scaling.validate_given (hs.withQueue rest) hw hgiven
    have hagain := Scaling.validate_accepted
      (Scaling.accepted_withoutInvalid (hs.withQueue rest) hw hgiven)
    have happly := Scaling.apply_of_validated hfirst hagain p real
    cases hlater : p.apply (s.withQueue rest).withoutInvalid real with
    | mk l r =>
      rw [hlater] at happly
      cases r with
      | error f =>
        rw [drain_builtIn_failed front haction happly]
        rw [drain_builtIn_failed (s := s.withoutInvalid) front haction hlater]
        rfl
      | ok t =>
        have ht : t.original = original := by
          obtain ⟨_, _, rfl⟩ := Scaling.apply_axes (congrArg Logged.result hlater)
          exact ho
        rw [drain_builtIn front haction happly ht]
        rw [drain_builtIn (s := s.withoutInvalid) front haction hlater ht]
        show (⟨(s.heightWarning ++ l) ++ _, _⟩ : Logged SizeSpec) = ⟨s.heightWarning ++ (l ++ _), _⟩
        rw [List.append_assoc]

end Run

end Engine

/-- The error with which a queue of policies rejects a size, if it does. -/
def SizeSpec.rejection? (s : SizeSpec) (ps : List Policy) : Option SizingError :=
  if s.width.unit = .invalid then some s.widthError
  else if (s.width.isSpecified || s.height.orUnspecified.isSpecified) = false then some s.emptyError
  else if (Policy.exactFirst ps && !Scaling.bothGiven s.width s.height.orUnspecified) = true then
    some s.exactError
  else none

/-- What a queue of policies logs before it returns or rejects: an invalid height, unless the
width is invalid already. -/
def SizeSpec.policyWarnings (s : SizeSpec) : List LogEntry :=
  if s.width.unit = .invalid then [] else s.heightWarning

theorem SizeSpec.rejection?_kind {s : SizeSpec} {ps : List Policy} {err : SizingError}
    (h : s.rejection? ps = some err) : err.kind = .validation := by
  unfold rejection? at h
  split at h
  · cases h
    rfl
  · split at h
    · cases h
      rfl
    · split at h
      · cases h
        rfl
      · cases h

/-- When a queue of policies rejects a size. -/
theorem SizeSpec.isSome_rejection?_iff (s : SizeSpec) (ps : List Policy) :
    (s.rejection? ps).isSome = true ↔
      s.width.unit = .invalid ∨
      (s.width.unit = .unspecified ∧ s.height.orUnspecified.unit = .unspecified) ∨
      (Policy.exactFirst ps = true ∧
        (s.width.unit = .unspecified ∨ s.height.orUnspecified.unit = .unspecified)) := by
  rw [← Dimension.isSpecified_eq_false_iff s.width,
    ← Dimension.isSpecified_eq_false_iff s.height.orUnspecified]
  unfold rejection? Scaling.bothGiven
  by_cases hw : s.width.unit = .invalid
  · simp [hw]
  · rw [if_neg hw]
    cases s.width.isSpecified <;> cases s.height.orUnspecified.isSpecified <;>
      cases Policy.exactFirst ps <;> simp [hw]

namespace Engine

/-- A size that a queue of policies rejects. -/
theorem drain_of_rejection {e : Engine} {res : Resolver} {real : RealDimension} {s : SizeSpec}
    {ps : List Policy} {n : Nat} {err : SizingError} (hs : s.Ready) (hq : RunsOnly s.queue ps)
    (hne : ps ≠ []) (hn : ps.length ≤ n) (finw : real.width.isFinite = true)
    (finh : real.height.isFinite = true) (herr : s.rejection? ps = some err) :
    e.drain res real s.original n s =
      ⟨s.policyWarnings ++ [.error err.message], .error (.sizing err)⟩ := by
  unfold SizeSpec.rejection? at herr
  unfold SizeSpec.policyWarnings
  by_cases hw : s.width.unit = .invalid
  · rw [if_pos hw] at herr ⊢
    cases herr
    exact drain_rejected hq hne hn fun queue => Scaling.validate_invalid (hs.withQueue queue) hw
  · rw [if_neg hw] at herr ⊢
    by_cases hempty : (s.width.isSpecified || s.height.orUnspecified.isSpecified) = false
    · rw [if_pos hempty] at herr
      cases herr
      exact drain_rejected hq hne hn fun queue => Scaling.validate_empty (hs.withQueue queue) hw hempty
    · have hgiven : (s.width.isSpecified || s.height.orUnspecified.isSpecified) = true :=
        (Bool.not_eq_false _).mp hempty
      rw [if_neg hempty] at herr
      split at herr
      · rename_i hexact
        cases herr
        have haccepted := Scaling.accepted_withoutInvalid hs hw hgiven
        obtain ⟨w, h, hshares, factor, hf⟩ := Scaling.exists_factors haccepted
          (Number.hasDouble_of_isFinite finw) (Number.hasDouble_of_isFinite finh)
        have hsettled : settled ps s.withoutInvalid factor =
            ⟨[.error s.exactError.message], .error (.sizing s.exactError)⟩ := if_pos hexact
        have hdrain : e.drain res real s.original n s.withoutInvalid = settled ps s.withoutInvalid factor :=
          drain_accepted haccepted hq hn hshares hf rfl
        rw [drain_validated hs hq hne hn hw hgiven rfl, hdrain, hsettled]
      · cases herr

/-- A size that a queue of policies does not reject. -/
theorem drain_of_no_rejection {e : Engine} {res : Resolver} {real : RealDimension} {s : SizeSpec}
    {ps : List Policy} {n : Nat} (hs : s.Ready) (hq : RunsOnly s.queue ps) (hne : ps ≠ [])
    (hn : ps.length ≤ n) (finw : real.width.isFinite = true) (finh : real.height.isFinite = true)
    (hnone : s.rejection? ps = none) :
    ∃ w h, ∃ factor : Scaling.Choice → Binary64,
      Scaling.shares? s.width s.height.orUnspecified real = some (w, h) ∧
      (∀ c : Scaling.Choice, (c.pick h w).toBinary64 = .ok (factor c)) ∧
      e.drain res real s.original n s =
        ⟨s.policyWarnings, .ok (passed ps s.withoutInvalid factor)⟩ := by
  unfold SizeSpec.rejection? at hnone
  unfold SizeSpec.policyWarnings
  by_cases hw : s.width.unit = .invalid
  · rw [if_pos hw] at hnone
    cases hnone
  · rw [if_neg hw] at hnone ⊢
    by_cases hempty : (s.width.isSpecified || s.height.orUnspecified.isSpecified) = false
    · rw [if_pos hempty] at hnone
      cases hnone
    · have hgiven : (s.width.isSpecified || s.height.orUnspecified.isSpecified) = true :=
        (Bool.not_eq_false _).mp hempty
      rw [if_neg hempty] at hnone
      split at hnone
      · cases hnone
      · rename_i hexact
        have haccepted := Scaling.accepted_withoutInvalid hs hw hgiven
        obtain ⟨w, h, hshares, factor, hf⟩ := Scaling.exists_factors haccepted
          (Number.hasDouble_of_isFinite finw) (Number.hasDouble_of_isFinite finh)
        refine ⟨w, h, factor, hshares, hf, ?_⟩
        have hsettled : settled ps s.withoutInvalid factor = pure (passed ps s.withoutInvalid factor) :=
          if_neg hexact
        have hdrain : e.drain res real s.original n s.withoutInvalid = settled ps s.withoutInvalid factor :=
          drain_accepted haccepted hq hn hshares hf rfl
        rw [drain_validated hs hq hne hn hw hgiven rfl, hdrain, hsettled]
        show (⟨s.heightWarning ++ [], .ok (passed ps s.withoutInvalid factor)⟩ : Logged SizeSpec) = _
        rw [List.append_nil]

/-- The closed form of every queue of policies. -/
theorem calculate_builtIn {e : Engine} {raw : Value} {real : RealDimension} {s : SizeSpec}
    {ps : List Policy} (hplain : raw.isPlain = true) (hprint : raw.printable = true)
    (hs : (e.normalize raw).result = .ok s) (hq : RunsOnly s.queue ps) (hne : ps ≠ [])
    (hn : ps.length ≤ e.config.maxSteps.steps) (finw : real.width.isFinite = true)
    (finh : real.height.isFinite = true) :
    let log := (e.normalize raw).entries ++ s.policyWarnings
    let height := s.height.orUnspecified
    (∀ err, s.rejection? ps = some err →
      e.calculate raw real = ⟨log ++ [.error err.message], .error (.sizing err)⟩) ∧
    (s.rejection? ps = none → Policy.firstChoice? ps = none →
      e.calculate raw real = ⟨log, .ok ⟨s.width, height, [], s.original, s.extras⟩⟩) ∧
    (∀ c, s.rejection? ps = none → Policy.firstChoice? ps = some c →
      ∃ w h f, Scaling.shares? s.width height real = some (w, h) ∧
        (c.pick h w).toBinary64 = .ok f ∧
        e.calculate raw real = ⟨log, .ok ⟨.factor f, .factor f, [], s.original, s.extras⟩⟩) ∧
    ((∃ err, err.kind = .validation ∧ (e.calculate raw real).result = .error (.sizing err)) ↔
      s.width.unit = .invalid ∨
      (s.width.unit = .unspecified ∧ height.unit = .unspecified) ∨
      (Policy.exactFirst ps = true ∧
        (s.width.unit = .unspecified ∨ height.unit = .unspecified))) := by
  intro log height
  have hready : s.Ready := Size.ready_of_normalize hplain hprint hs
  have hcalculate : e.calculate raw real = ⟨(e.normalize raw).entries ++
      (e.drain (e.resolveAt e.nesting) real s.original e.config.maxSteps.steps s).entries,
      (e.drain (e.resolveAt e.nesting) real s.original e.config.maxSteps.steps s).result⟩ :=
    Logged.bind_ok _ hs
  have hrejected : ∀ err, s.rejection? ps = some err →
      e.calculate raw real = ⟨log ++ [.error err.message], .error (.sizing err)⟩ := by
    intro err herr
    rw [hcalculate, drain_of_rejection hready hq hne hn finw finh herr]
    show (⟨_ ++ (_ ++ _), _⟩ : Logged SizeSpec) = _
    rw [← List.append_assoc]
  have hpassed : s.rejection? ps = none → ∃ w h, ∃ factor : Scaling.Choice → Binary64,
      Scaling.shares? s.width height real = some (w, h) ∧
      (∀ c : Scaling.Choice, (c.pick h w).toBinary64 = .ok (factor c)) ∧
      e.calculate raw real = ⟨log, .ok (passed ps s.withoutInvalid factor)⟩ := by
    intro hnone
    obtain ⟨w, h, factor, hshares, hf, hdrain⟩ :=
      drain_of_no_rejection hready hq hne hn finw finh hnone
    refine ⟨w, h, factor, hshares, hf, ?_⟩
    rw [hcalculate, hdrain]
  refine ⟨hrejected, ?_, ?_, ?_⟩
  · intro hnone hchoice
    obtain ⟨w, h, factor, _, _, hresult⟩ := hpassed hnone
    rw [hresult, passed, hchoice]
    rfl
  · intro c hnone hchoice
    obtain ⟨w, h, factor, hshares, hf, hresult⟩ := hpassed hnone
    refine ⟨w, h, factor c, hshares, hf c, ?_⟩
    rw [hresult, passed, hchoice]
    rfl
  · rw [← SizeSpec.isSome_rejection?_iff]
    constructor
    · rintro ⟨err, _, herr⟩
      cases hrejection : s.rejection? ps with
      | some _ => rfl
      | none =>
        obtain ⟨w, h, factor, _, _, hresult⟩ := hpassed hrejection
        rw [hresult] at herr
        cases herr
    · intro hsome
      obtain ⟨err, herr⟩ := Option.isSome_iff_exists.1 hsome
      refine ⟨err, SizeSpec.rejection?_kind herr, ?_⟩
      rw [hrejected err herr]

/-! ## A width of ten pixels -/

/-- A width of ten pixels, to be checked and then contained. -/
def tenWide : Mapping :=
  [(.str "function", .list [.str "check", .str "contain"]), (.str "width", .int 10)]

def tenWideSpec : SizeSpec :=
  ⟨.pixel (.int 10), .unspecified, [.ofPolicy .check, .ofPolicy .contain], tenWide, []⟩

def twentyByForty : RealDimension := ⟨.int 20, .int 40, by decide, by decide⟩

theorem read_ten : Dimension.read .standard (.int 10) = .ok (.pixel (.int 10)) := by
  have hfin : (Number.int 10).isFinite = true := by decide +kernel
  have hnumeral : (Numeral.Signed.toBinary64 ⟨false, ['1', '0'], []⟩).isFinite = true := by
    decide +kernel
  have htext : Dimension.readText .standard (Dimension.tokenOf (.int 10)) =
      Dimension.ofPixelNumeral ⟨false, ['1', '0'], []⟩ := rfl
  show Dimension.readNumber .standard (.int 10) = _
  unfold Dimension.readNumber
  rw [if_pos hfin, htext]
  unfold Dimension.ofPixelNumeral
  rw [if_pos hnumeral]
  rfl

theorem normalize_tenWide : Engine.normalize {} (.map tenWide) = pure tenWideSpec := by
  have hcanonical : Engine.normalize {} (.map tenWide) =
      Size.normalizeCanonical .standard {} (Mapping.insert "original" (.map tenWide) tenWide) := rfl
  have hwidth : Mapping.get (Mapping.insert "original" (.map tenWide) tenWide) "width" = .int 10 := rfl
  have hgrammar : EngineConfig.standard.grammar = .standard := rfl
  rw [hcanonical]
  unfold Size.normalizeCanonical
  rw [hwidth, hgrammar, read_ten]
  rfl

/-- Both axes get the smaller one of the share of the width and the share inferred from it. -/
theorem calculate_builtIn_tenWide :
    Engine.normalize {} (.map tenWide) = pure tenWideSpec ∧
    ∃ w h f, Scaling.shares? (.pixel (.int 10)) .unspecified twentyByForty = some (w, h) ∧
      (Number.min h w).toBinary64 = .ok f ∧
      Engine.calculate {} (.map tenWide) twentyByForty =
        ⟨[], .ok ⟨.factor f, .factor f, [], tenWide, []⟩⟩ := by
  have hs : (Engine.normalize {} (.map tenWide)).result = .ok tenWideSpec := by
    rw [normalize_tenWide]
    rfl
  have hentries : (Engine.normalize {} (.map tenWide)).entries = [] := by
    rw [normalize_tenWide]
    rfl
  have hprint : (Value.map tenWide).printable = true := by decide +kernel
  have hq : RunsOnly tenWideSpec.queue [.check, .contain] := rfl
  have finw : twentyByForty.width.isFinite = true := by decide +kernel
  have finh : twentyByForty.height.isFinite = true := by decide +kernel
  have hclosed := calculate_builtIn rfl hprint hs hq (by decide) (by decide) finw finh
  obtain ⟨w, h, f, hshares, hf, hresult⟩ := hclosed.2.2.1 .smaller rfl rfl
  rw [hentries] at hresult
  exact ⟨normalize_tenWide, w, h, f, hshares, hf, hresult⟩

end Engine

end ImageSizing
