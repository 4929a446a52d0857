import Mathlib.Data.List.Induction
import Mathlib.Data.List.Nodup
import ImageSizing.Proofs.Engine.Reclusive

/-!
# Registrations

What a sequence of registrations makes of an engine.  Of the calls only the accepted ones count
(`Registration.accepted?`); each puts a step of its name, in the old place of the name or else at
the end:

    (putAll steps []).map Step.name = (steps.map Step.name).eraseDups          (map_name_putAll)

`Registry.Reflects` says what a registry holds after some calls: the four policies under their
names, and under every other name what was put there last.  `register_history` adds what this means
for sizes: those that mention only names of policies keep their normal form, and those that are
normalized already keep their steps.
-/

namespace ImageSizing

namespace Policy

theorem ofName?_eq_some_iff {name : String} {p : Policy} : ofName? name = some p ↔ name = p.name := by
  constructor
  · intro h
    unfold ofName? at h
    split at h <;> cases h <;> rfl
  · rintro rfl
    cases p <;> rfl

theorem ofName?_eq_none_iff {name : String} : ofName? name = none ↔ name ∉ all.map Policy.name := by
  have hall : ∀ p, p ∈ all := by
    intro p
    cases p <;> decide
  constructor
  · intro h hmem
    obtain ⟨p, -, hp⟩ := List.mem_map.1 hmem
    rw [ofName?_eq_some_iff.2 hp.symm] at h
    cases h
  · intro h
    cases hp : ofName? name with
    | none => rfl
    | some p =>
      rw [ofName?_eq_some_iff.1 hp] at h
      exact absurd (List.mem_map.2 ⟨p, hall p, rfl⟩) h

end Policy

/-! ## Calls -/

/-- One call that registers a value under a name given as a value. -/
structure Registration where
  name : Value
  func : Value

namespace Registration

/-- The step that an accepted call registers: the name is a text, neither empty nor that of a policy,
and the function can be called. -/
def accepted? (call : Registration) : Option Step :=
  match call.name with
  | .str name =>
    if name = "" ∨ name ∈ Policy.all.map Policy.name then none
    else Registry.stepUnder? name call.func
  | _ => none

theorem name_stepUnder? {name : String} {func : Value} {step : Step}
    (h : Registry.stepUnder? name func = some step) : step.name = name := by
  unfold Registry.stepUnder? at h
  split at h <;> cases h <;> rfl

theorem not_policy_of_accepted {call : Registration} {step : Step}
    (h : call.accepted? = some step) : step.name ∉ Policy.all.map Policy.name := by
  unfold accepted? at h
  split at h
  · split at h
    · cases h
    · next hfree =>
      rw [name_stepUnder? h]
      exact fun hmem => hfree (.inr hmem)
  · cases h

end Registration

namespace Registry

def putAll (steps known : List Step) : List Step :=
  steps.foldl (fun known step => put step known) known

theorem putAll_append (steps later known : List Step) :
    putAll (steps ++ later) known = putAll later (putAll steps known) :=
  List.foldl_append

/-- An accepted call puts its step. -/
theorem register_of_accepted (r : Registry) {call : Registration} {step : Step}
    (h : call.accepted? = some step) :
    r.register call.name call.func = .ok { custom := put step r.custom } := by
  obtain ⟨name, func⟩ := call
  unfold Registration.accepted? at h
  cases name with
  | str name =>
    dsimp only at h ⊢
    split at h
    · cases h
    · next hfree =>
      rw [not_or, ← Policy.ofName?_eq_none_iff] at hfree
      unfold register
      dsimp only
      rw [if_neg (by simpa using hfree.1), hfree.2, if_neg (by simp), h]
  | _ => cases h

/-- Any other call is rejected. -/
theorem register_of_rejected (r : Registry) {call : Registration} (h : call.accepted? = none) :
    ∃ f, r.register call.name call.func = .error f := by
  obtain ⟨name, func⟩ := call
  unfold Registration.accepted? at h
  cases name with
  | str name =>
    dsimp only at h ⊢
    unfold register
    dsimp only
    by_cases hempty : name.isEmpty = true
    · exact ⟨_, if_pos hempty⟩
    rw [if_neg hempty]
    by_cases hpolicy : (Policy.ofName? name).isSome = true
    · exact ⟨_, if_pos hpolicy⟩
    rw [if_neg hpolicy]
    have hfree : ¬(name = "" ∨ name ∈ Policy.all.map Policy.name) := by
      rw [not_or, ← Policy.ofName?_eq_none_iff]
      exact ⟨by simpa using hempty, by simpa using hpolicy⟩
    rw [if_neg hfree] at h
    rw [h]
    exact ⟨_, rfl⟩
  | _ =>
    unfold register
    dsimp only
    split <;> exact ⟨_, rfl⟩

/-! ## Names -/

theorem map_name_put (step : Step) (known : List Step) :
    (put step known).map Step.name =
      if step.name ∈ known.map Step.name then known.map Step.name
      else known.map Step.name ++ [step.name] := by
  induction known with
  | nil => simp [put]
  | cons t rest ih =>
    unfold put
    by_cases h : t.name = step.name
    · simp [h]
    · rw [if_neg h, List.map_cons, ih]
      by_cases hmem : step.name ∈ rest.map Step.name
      · simp [hmem]
      · simp [hmem, Ne.symm h]

/-- The names stand in the order in which they were first put, each once. -/
theorem map_name_putAll (steps : List Step) :
    (putAll steps []).map Step.name = (steps.map Step.name).eraseDups := by
  induction steps using List.reverseRecOn with
  | nil => rfl
  | append_singleton steps step ih =>
    have hput : putAll (steps ++ [step]) [] = put step (putAll steps []) :=
      putAll_append steps [step] []
    rw [hput, map_name_put, ih, List.map_append, List.eraseDups_append, List.map_singleton]
    by_cases h : step.name ∈ steps.map Step.name
    · have hremoved : [step.name].removeAll (steps.map Step.name) = [] := by
        simpa [List.removeAll] using h
      rw [if_pos (List.mem_eraseDups.2 h), hremoved]
      simp
    · have hkept : [step.name].removeAll (steps.map Step.name) = [step.name] := by
        simpa [List.removeAll] using h
      rw [if_neg (mt List.mem_eraseDups.1 h), hkept]
      rfl

theorem nodup_map_name_putAll {steps known : List Step} (h : (known.map Step.name).Nodup) :
    ((putAll steps known).map Step.name).Nodup := by
  induction steps generalizing known with
  | nil => exact h
  | cons step steps ih =>
    have hput : ((put step known).map Step.name).Nodup := by
      rw [map_name_put]
      split
      · exact h
      · next hnew =>
        rw [List.nodup_append]
        refine ⟨h, List.nodup_singleton _, ?_⟩
        intro n hn m hm heq
        rw [List.mem_singleton.1 hm] at heq
        exact hnew (heq ▸ hn)
    exact ih hput

/-! ## Look-ups -/

variable {n : String} {step : Step} {known : List Step}

theorem find?_put :
    (put step known).find? (fun s => s.name == n) =
      if n = step.name then some step else known.find? fun s => s.name == n := by
  induction known with
  | nil =>
    by_cases h : n = step.name
    · simp [put, h]
    · simp [put, h, Ne.symm h]
  | cons t rest ih =>
    unfold put
    by_cases ht : t.name = step.name
    · rw [if_pos ht]
      by_cases h : n = step.name
      · simp [h]
      · have hne : (step.name == n) = false := by simpa using Ne.symm h
        rw [if_neg h, List.find?_cons, List.find?_cons, ht, hne]
    · rw [if_neg ht, List.find?_cons, List.find?_cons]
      cases heq : t.name == n with
      | true =>
        have hne : n ≠ step.name := by
          rw [← beq_iff_eq.1 heq]
          exact ht
        rw [if_neg hne]
      | false => exact ih

/-- What is put under other names changes nothing. -/
theorem find?_putAll_of_not_mem {steps : List Step} (h : n ∉ steps.map Step.name) :
    (putAll steps known).find? (fun s => s.name == n) = known.find? fun s => s.name == n := by
  induction steps generalizing known with
  | nil => rfl
  | cons step steps ih =>
    rw [List.map_cons, List.mem_cons, not_or] at h
    calc
      _ = (put step known).find? fun s => s.name == n := ih h.2
      _ = _ := by rw [find?_put, if_neg h.1]

/-- The step of a name is the one that was put last. -/
theorem find?_putAll_last {first later : List Step} (h : step.name ∉ later.map Step.name) :
    (putAll (first ++ step :: later) known).find? (fun s => s.name == step.name) = some step := by
  rw [putAll_append]
  show (putAll later (put step (putAll first known))).find? _ = _
  rw [find?_putAll_of_not_mem h, find?_put, if_pos rfl]

theorem find?_policy (r : Registry) (p : Policy) : r.find? p.name = some (.ofPolicy p) := by
  unfold find?
  rw [Policy.ofName?_eq_some_iff.2 rfl]

theorem find?_custom (r : Registry) (h : n ∉ Policy.all.map Policy.name) :
    r.find? n = r.custom.find? fun s => s.name == n := by
  unfold find?
  rw [Policy.ofName?_eq_none_iff.2 h]

end Registry

/-! ## Engines -/

namespace Engine

/-- The engine after some calls of `register`; one that is rejected leaves it as it is. -/
def registerAll (e : Engine) : List Registration → Engine
  | [] => e
  | call :: calls =>
    match e.register call.name call.func with
    | .ok e' => e'.registerAll calls
    | .error _ => e.registerAll calls

theorem register_eq (e : Engine) (name func : Value) :
    e.register name func = (e.registry.register name func).map fun r => { e with registry := r } := by
  unfold register
  cases e.registry.register name func <;> rfl

theorem register_eq_error_iff {e : Engine} {call : Registration} :
    (∃ f, e.register call.name call.func = .error f) ↔ call.accepted? = none := by
  constructor
  · rintro ⟨f, hf⟩
    cases h : call.accepted? with
    | none => rfl
    | some step =>
      rw [register_eq, e.registry.register_of_accepted h] at hf
      cases hf
  · intro h
    obtain ⟨f, hf⟩ := e.registry.register_of_rejected h
    exact ⟨f, by rw [register_eq, hf]; rfl⟩

/-- Calls put what they register, and change nothing else of an engine. -/
theorem registerAll_eq (e : Engine) (calls : List Registration) :
    e.registerAll calls = { e with registry :=
      { custom := Registry.putAll (calls.filterMap Registration.accepted?) e.registry.custom } } := by
  induction calls generalizing e with
  | nil => rfl
  | cons call calls ih =>
    unfold registerAll
    cases h : call.accepted? with
    | none =>
      obtain ⟨f, hf⟩ := register_eq_error_iff.2 h
      rw [hf, List.filterMap_cons_none h]
      exact ih e
    | some step =>
      rw [register_eq, e.registry.register_of_accepted h, List.filterMap_cons_some h]
      exact ih _

theorem registerAll_append (e : Engine) (earlier calls : List Registration) :
    e.registerAll (earlier ++ calls) = (e.registerAll earlier).registerAll calls := by
  rw [registerAll_eq, registerAll_eq _ calls, registerAll_eq e earlier, List.filterMap_append,
    Registry.putAll_append]

/-- Rejected calls may as well be left out. -/
theorem registerAll_filter (e : Engine) (calls : List Registration) :
    e.registerAll (calls.filter fun call => call.accepted?.isSome) = e.registerAll calls := by
  rw [registerAll_eq, registerAll_eq]
  have hsame : (calls.filter fun call => call.accepted?.isSome).filterMap Registration.accepted? =
      calls.filterMap Registration.accepted? := by
    rw [List.filterMap_filter]
    refine List.filterMap_congr fun call _ => ?_
    cases call.accepted? <;> rfl
  rw [hsame]

theorem normalize_registerAll (e : Engine) (calls : List Registration) {size : Value}
    (h : ∀ ref ∈ Size.initialReferences e.config size, ref.IsSettled) :
    (e.registerAll calls).normalize size = e.normalize size := by
  rw [registerAll_eq]
  exact Size.normalize_of_settled h _ _

/-- A normalized size is its own normal form in every engine. -/
theorem normalize_toValue (e : Engine) (s : SizeSpec) : e.normalize s.toValue = pure s :=
  Size.normalize_toValue e.config e.registry s none

variable {e : Engine} {real : RealDimension} {s : SizeSpec}

theorem calculation_registerAll (e : Engine) (calls : List Registration) :
    ∃ r resolver, (e.registerAll calls).calculation real s = (e.calculation real s).knowing r resolver := by
  rw [registerAll_eq]
  exact ⟨_, _, rfl⟩

/-- Registrations leave a run as it is whose steps do not depend on the known names. -/
theorem historyOf_registerAll (h : ∀ step ∈ s.queue, e.IsReclusive real step)
    (calls : List Registration) : (e.registerAll calls).historyOf real s = e.historyOf real s := by
  obtain ⟨r, resolver, hknowing⟩ :
      ∃ r resolver, (e.registerAll calls).calculation real s =
        (e.calculation real s).knowing r resolver := e.calculation_registerAll calls
  have hlimit : (e.registerAll calls).config = e.config := by rw [registerAll_eq]
  unfold historyOf
  rw [hknowing, hlimit]
  exact Calculation.history_of_reclusive h r resolver _

theorem calculate_registerAll (h : ∀ step ∈ s.queue, e.IsReclusive real step)
    (calls : List Registration) :
    (e.registerAll calls).calculate s.toValue real = e.calculate s.toValue real := by
  obtain ⟨r, resolver, hknowing⟩ :
      ∃ r resolver, (e.registerAll calls).calculation real s =
        (e.calculation real s).knowing r resolver := e.calculation_registerAll calls
  rw [calculate_eq_outcome, calculate_eq_outcome, normalize_toValue, normalize_toValue,
    Logged.pure_bind, Logged.pure_bind, historyOf_registerAll h calls, hknowing]
  rfl

end Engine

/-! ## Histories of registrations -/

/-- What a registry holds after some steps were put, one after the other: the names, with those
of the policies first and the others in the order in which they were first put, each once; the
policies under their names, under any other name what was put last, and nothing under a name that
is not among these. -/
structure Registry.Reflects (r : Registry) (steps : List Step) : Prop where
  names : r.names = Policy.all.map Policy.name ++ (steps.map Step.name).eraseDups
  nodup : r.names.Nodup
  policy : ∀ p : Policy, r.find? p.name = some (.ofPolicy p)
  last : ∀ first step later, steps = first ++ step :: later →
    step.name ∉ later.map Step.name → r.find? step.name = some step
  unknown : ∀ name, name ∉ r.names → r.find? name = none

theorem Registry.reflects_putAll {steps : List Step}
    (h : ∀ step ∈ steps, step.name ∉ Policy.all.map Policy.name) :
    (⟨putAll steps []⟩ : Registry).Reflects steps := by
  have hnames : (⟨putAll steps []⟩ : Registry).names =
      Policy.all.map Policy.name ++ (steps.map Step.name).eraseDups := by
    rw [← map_name_putAll]
    rfl
  refine ⟨hnames, ?_, find?_policy _, ?_, ?_⟩
  · show (Policy.all.map Policy.name ++ (putAll steps []).map Step.name).Nodup
    rw [List.nodup_append]
    refine ⟨by decide, nodup_map_name_putAll List.nodup_nil, ?_⟩
    intro n hn m hm heq
    rw [map_name_putAll, List.mem_eraseDups] at hm
    obtain ⟨step, hstep, rfl⟩ := List.mem_map.1 hm
    exact h step hstep (heq ▸ hn)
  · intro first step later heq hlast
    have hfree : step.name ∉ Policy.all.map Policy.name := by
      refine h step ?_
      rw [heq]
      exact List.mem_append_right _ List.mem_cons_self
    rw [find?_custom _ hfree, heq, find?_putAll_last hlast]
  · intro name hname
    rw [hnames, List.mem_append, not_or, List.mem_eraseDups] at hname
    rw [find?_custom _ hname.1, find?_putAll_of_not_mem hname.2]
    rfl

namespace Engine

theorem reflects_registerAll {e : Engine} (hnew : e.registry = {}) (calls : List Registration) :
    (e.registerAll calls).registry.Reflects (calls.filterMap Registration.accepted?) := by
  rw [registerAll_eq, hnew]
  refine Registry.reflects_putAll fun step hstep => ?_
  obtain ⟨call, -, hcall⟩ := List.mem_filterMap.1 hstep
  exact Registration.not_policy_of_accepted hcall

/-- The history of registrations of a new engine: some calls, and then some more.  Its registry
reflects the accepted ones among them, whatever the rejected ones were, and a call is rejected
exactly if it is not acceptable.  A size that mentions no names but those of policies has the same
normal form between the two groups of calls and after them.  A size that was normalized between them
is still normalized afterwards; its steps are run as they stand, as long as they change axes only,
and to the same effect if they ask for nothing that depends on the known names. -/
theorem register_history {e : Engine} (hnew : e.registry = {}) (earlier calls : List Registration) :
    let before := e.registerAll earlier
    let after := before.registerAll calls
    after.registry.Reflects ((earlier ++ calls).filterMap Registration.accepted?) ∧
    after = e.registerAll ((earlier ++ calls).filter fun call => call.accepted?.isSome) ∧
    (∀ call : Registration, (∃ f, after.register call.name call.func = .error f) ↔ call.accepted? = none) ∧
    (∀ size, (∀ ref ∈ Size.initialReferences e.config size, ref.IsSettled) →
      after.normalize size = before.normalize size) ∧
    ∀ size s real, (before.normalize size).result = .ok s →
      after.normalize s.toValue = pure s ∧
      (∀ engine ∈ [before, after], (engine.historyOf real s).ResizesOnly →
        (engine.historyOf real s).executed <+: s.queue ∧
          ((∀ step given f, (engine.historyOf real s).ending ≠ .failed step given f) →
            (engine.historyOf real s).executed = s.queue.take e.config.maxSteps.steps)) ∧
      ((∀ step ∈ s.queue, before.IsReclusive real step) →
        after.historyOf real s = before.historyOf real s ∧
          after.calculate s.toValue real = before.calculate s.toValue real) := by
  intro before after
  have hafter : after = e.registerAll (earlier ++ calls) := (e.registerAll_append earlier calls).symm
  have hconfig : before.config = e.config := by rw [show before = _ from e.registerAll_eq earlier]
  have hconfig' : after.config = e.config := by rw [hafter, registerAll_eq]
  refine ⟨?_, ?_, fun call => register_eq_error_iff, ?_, ?_⟩
  · rw [hafter]
    exact reflects_registerAll hnew _
  · rw [hafter, registerAll_filter]
  · intro size hsize
    rw [← hconfig] at hsize
    exact before.normalize_registerAll calls hsize
  · intro size s real _
    refine ⟨after.normalize_toValue s, ?_, ?_⟩
    · intro engine hengine hresizes
      have hlimit : engine.config = e.config := by
        rcases List.mem_pair.1 hengine with rfl | rfl
        · exact hconfig
        · exact hconfig'
      rw [← hlimit]
      exact Calculation.executed_of_resized hresizes
    · intro hreclusive
      exact ⟨historyOf_registerAll hreclusive calls, calculate_registerAll hreclusive calls⟩

/-- A custom function that swaps the axes, and one that does nothing. -/
def turner : Callable := ⟨some "turner", 0⟩

def idler : Callable := ⟨some "idler", 1⟩

def turningEngine : Engine := { functions := Recipe.functions #[.swap, .nothing] }

/-- Calls on that engine: four are rejected, and the last one takes a name over. -/
def turningCalls : List Registration :=
  [⟨.str "check", .callable turner⟩, ⟨.str "", .callable turner⟩, ⟨.str "idle", .callable idler⟩,
    ⟨.nothing, .callable turner⟩, ⟨.str "idle", .nothing⟩, ⟨.str "turn", .callable idler⟩]

def turningSize : Mapping :=
  [(.str "width", .dim .pixel (.int 10)), (.str "function", .str "turn")]

/-- The step that its name stands for at first, and the two steps that stand under names in the
end. -/
def turnStep : Step := { name := "turn", action := .custom turner }

def takenStep : Step := { name := "turn", action := .custom idler }

def idleStep : Step := { name := "idle", action := .custom idler }

/-- What it is normalized to as long as the name stands for the function that swaps axes. -/
def turningSpec : SizeSpec :=
  ⟨.pixel (.int 10), .unspecified, [turnStep], turningSize, []⟩

/-- A name that was taken over keeps its place, and a size that was normalized before still runs
the function of that time. -/
theorem register_history_turning :
    let before := turningEngine.registerAll [⟨.str "turn", .callable turner⟩]
    let after := before.registerAll turningCalls
    let real : RealDimension := ⟨.int 4, .int 4, by decide, by decide⟩
    turningEngine.registry = {} ∧
    after.functionNames = Policy.all.map Policy.name ++ ["turn", "idle"] ∧
    after.registry.find? "turn" = some takenStep ∧
    (before.normalize (.map turningSize)).result = .ok turningSpec ∧
    after.historyOf real turningSpec = before.historyOf real turningSpec ∧
    (after.historyOf real turningSpec).executed = [turnStep] := by
  intro before after real
  obtain ⟨hreflects, -, -, -, hrun⟩ := register_history (e := turningEngine) rfl
    [⟨.str "turn", .callable turner⟩] turningCalls
  have hbefore : before = { turningEngine with registry := ⟨[turnStep]⟩ } := rfl
  have hafter : after = { turningEngine with registry := ⟨[takenStep, idleStep]⟩ } := rfl
  have hs : (before.normalize (.map turningSize)).result = .ok turningSpec := by
    rw [hbefore]
    rfl
  obtain ⟨-, hexecuted, hsame⟩ := hrun (.map turningSize) turningSpec real hs
  have hswaps : (after.historyOf real turningSpec).ResizesOnly := by
    intro u hu _
    have hu' : u ∈ [(⟨turnStep, turningSpec.withQueue [],
      ((turningSpec.withQueue []).withSize .unspecified (.pixel (.int 10))).toValue⟩ : Turn)] := by
      rw [hafter] at hu
      exact hu
    rw [List.mem_singleton.1 hu']
    exact .inr ⟨_, _, rfl⟩
  refine ⟨rfl, hreflects.names, ?_, hs, (hsame ?_).1, ?_⟩
  · exact hreflects.last [turnStep, idleStep] takenStep [] rfl List.not_mem_nil
  · intro step hstep c hc given
    rw [List.mem_singleton.1 hstep] at hc
    cases hc
    refine .inr ⟨given.height.toValue, given.width.toValue, ?_⟩
    show Value.spec _ _ (given.queue.map Value.step ++ []) _ _ = _
    rw [List.append_nil]
    rfl
  · refine ((hexecuted after (List.mem_pair.2 (.inr rfl)) hswaps).2 ?_).trans rfl
    intro step given f h
    rw [hafter] at h
    cases h

end Engine

end ImageSizing
