import ImageSizing.Engine.Recipe
import ImageSizing.Proofs.Engine.History
import ImageSizing.Proofs.Scaling.Frame

/-!
# The order of execution

References wait in one queue: first those that a size starts with, then those that its steps
append, step after step.  `executed_eq_enqueued` says that a completed calculation executes
exactly these, each once and in this order, as long as every custom step answers nothing or
the size it was given with other axes and further references (`Turn.Derives`); a policy
always does.  The invariant that carries it links the executed steps, the pending ones and
the appended references:

    s.queue ++ appended by us = steps of us ++ t.queue   (Calculation.Turns.queue_append)
-/

namespace ImageSizing

/-- The answer of a step is absent, or the size that the step was given with other axes. -/
def SizeSpec.ResizedBy (given : SizeSpec) (answer : Value) : Prop :=
  answer.isTruthy = false ∨
    ∃ width height, answer =
      .spec width height (given.queue.map .step) given.original given.extras

namespace Turn

/-- The answer is absent, or the given size with other axes and references appended. -/
def Derives (u : Turn) : Prop :=
  u.answer.isTruthy = false ∨
    ∃ width height refs, u.answer =
      .spec width height (u.given.queue.map .step ++ refs) u.given.original u.given.extras

/-- What the functions of the library answer: other axes, and references added with `andThen`. -/
theorem derives_of_andThen {u : Turn} (width height : Dimension) (refs : List Value)
    (h : u.answer = (u.given.withSize width height).andThen refs) : u.Derives :=
  .inr ⟨_, _, refs, h⟩

/-- The references that the answer has beyond the queue that was given. -/
def appended (u : Turn) : List Value :=
  match u.answer with
  | .spec _ _ functions _ _ => functions.drop u.given.queue.length
  | _ => []

theorem appended_of_falsy {u : Turn} (h : u.answer.isTruthy = false) : u.appended = [] := by
  unfold appended
  cases ha : u.answer with
  | spec w h' fs o x =>
    rw [ha] at h
    cases h
  | _ => rfl

theorem appended_of_spec {u : Turn} {width height : Value} {refs : List Value}
    {original extras : Mapping}
    (h : u.answer = .spec width height (u.given.queue.map .step ++ refs) original extras) :
    u.appended = refs := by
  unfold appended
  rw [h]
  show (u.given.queue.map Value.step ++ refs).drop u.given.queue.length = refs
  rw [List.drop_append_of_le_length (by simp), List.drop_of_length_le (by simp)]
  rfl

/-- A step that changes axes only derives, and appends nothing. -/
theorem derives_of_resized {u : Turn} (h : u.given.ResizedBy u.answer) :
    u.Derives ∧ u.appended = [] := by
  rcases h with hfalsy | ⟨width, height, hanswer⟩
  · exact ⟨.inl hfalsy, appended_of_falsy hfalsy⟩
  · rw [← List.append_nil (u.given.queue.map Value.step)] at hanswer
    exact ⟨.inr ⟨width, height, [], hanswer⟩, appended_of_spec hanswer⟩

end Turn

namespace Size

/-- The references that a size starts with. -/
def initialReferences (cfg : EngineConfig) : Value → List Value
  | .spec _ _ functions _ _ => functions
  | raw =>
    match (canonical cfg raw).result with
    | .ok m => references cfg (m.get "function")
    | .error _ => []

/-- The queue of a normalized size is the resolution of what the size starts with. -/
theorem normalize_queue {cfg : EngineConfig} {r : Registry} {raw : Value} {s : SizeSpec}
    (h : (normalize cfg r raw).result = .ok s) :
    s.queue = (initialReferences cfg raw).map (stepFor cfg r) := by
  have hraw : (∀ w h fs o x, raw ≠ .spec w h fs o x) →
      s.queue = (match (canonical cfg raw).result with
        | .ok m => references cfg (m.get "function")
        | .error _ => []).map (stepFor cfg r) := by
    intro hne
    rw [normalize_of_not_spec hne] at h
    obtain ⟨m, hm, h⟩ := Logged.bind_result_eq_ok_iff.1 h
    rw [hm]
    exact (normalizeCanonical_eq_ok h).2.2.1
  cases raw with
  | spec w h' fs o x => exact (normalizeSpec_eq_ok h).2.2.1
  | _ => exact hraw nofun

end Size

namespace Calculation

/-- The step that a reference resolves to in a calculation. -/
def stepFor (c : Calculation) (ref : Value) : Step :=
  Size.stepFor c.engine.config c.engine.registry ref

/-- What a turn that derives leads to: the size it was given with other axes, and with what it
appended behind what was pending; the snapshot is that of the calculation. -/
theorem turn_derived {c : Calculation} {step : Step} {given next : SizeSpec} {u : Turn}
    {l : List LogEntry} (h : c.turn step given = ⟨l, .ok (u, next)⟩) (hd : u.Derives) :
    next.queue = given.queue ++ u.appended.map c.stepFor ∧ next.original = c.original ∧
      next.extras = given.extras := by
  obtain ⟨rfl, rfl, hn⟩ := turn_eq_ok h
  rcases hd with hfalsy | ⟨width, height, refs, hanswer⟩
  · rw [Turn.appended_of_falsy hfalsy]
    unfold Engine.renormalize Engine.answerOr at hn
    rw [hfalsy, if_neg (by simp), Size.normalize_toValue] at hn
    cases hn
    simp
  · rw [Turn.appended_of_spec hanswer]
    have htruthy : u.answer.isTruthy = true := by rw [hanswer]; rfl
    unfold Engine.renormalize Engine.answerOr at hn
    rw [if_pos htruthy, hanswer] at hn
    obtain ⟨_, _, hq, ho, hx⟩ := Size.normalizeSpec_eq_ok hn
    rw [hq, List.map_append, List.map_map]
    refine ⟨?_, ho, hx⟩
    simp [Function.comp_def, stepFor]

/-- A policy changes axes only. -/
theorem resizedBy_of_policy {e : Engine} {resolver : Engine.Resolver} {step : Step} {given : SizeSpec}
    {real : RealDimension} {answer : Value} {p : Policy} (haction : step.action = .builtIn p)
    (h : (e.perform resolver step given real).result = .ok answer) : given.ResizedBy answer := by
  unfold Engine.perform at h
  rw [haction] at h
  obtain ⟨t, ht, hanswer⟩ := Logged.bind_result_eq_ok_iff.1 h
  cases hanswer
  obtain ⟨width, height, rfl⟩ := Scaling.apply_axes ht
  refine .inr ⟨width.toValue, height.toValue, ?_⟩
  show Value.spec width.toValue height.toValue (given.queue.map .step ++ []) given.original
    given.extras = _
  rw [List.append_nil]

/-- The answer of a turn is what its step comes to on the size that it is given. -/
theorem turn_answer {c : Calculation} {step : Step} {given next : SizeSpec} {u : Turn}
    {l : List LogEntry} (h : c.turn step given = ⟨l, .ok (u, next)⟩) :
    (c.engine.perform c.resolver step u.given c.real).result = .ok u.answer := by
  have hr : (c.turn step given).result = .ok (u, next) := by rw [h]
  unfold turn at hr
  obtain ⟨answer, hanswer, hr⟩ := Logged.bind_result_eq_ok_iff.1 hr
  obtain ⟨next', _, hr⟩ := Logged.bind_result_eq_ok_iff.1 hr
  cases hr
  exact hanswer

theorem resized_of_builtIn {c : Calculation} {step : Step} {given next : SizeSpec} {u : Turn}
    {l : List LogEntry} (h : c.turn step given = ⟨l, .ok (u, next)⟩) (hb : step.runsPolicy = true) :
    u.given.ResizedBy u.answer := by
  obtain ⟨p, haction⟩ := Step.exists_policy hb
  exact resizedBy_of_policy haction (turn_answer h)

theorem derives_of_builtIn {c : Calculation} {step : Step} {given next : SizeSpec} {u : Turn}
    {l : List LogEntry} (h : c.turn step given = ⟨l, .ok (u, next)⟩) (hb : step.runsPolicy = true) :
    u.Derives :=
  (Turn.derives_of_resized (resized_of_builtIn h hb)).1

/-- What policies and the custom steps of a run ensure holds of all of its turns. -/
theorem Turns.of_custom {c : Calculation} {P : Turn → Prop}
    (hpolicy : ∀ {step given next u l}, c.turn step given = ⟨l, .ok (u, next)⟩ →
      step.runsPolicy = true → P u)
    {s t : SizeSpec} {us : List Turn} {l : List LogEntry} (h : c.Turns s us l t)
    (hcustom : ∀ u ∈ us, u.step.runsPolicy = false → P u) : ∀ u ∈ us, P u := by
  induction h with
  | nil s => exact fun u hu => by cases hu
  | @cons s next t step rest u us l l' front done later ih =>
    intro v hv
    rcases List.mem_cons.1 hv with rfl | hv
    · cases hb : v.step.runsPolicy with
      | false => exact hcustom v List.mem_cons_self hb
      | true =>
        rw [(turn_eq_ok done).1] at hb
        exact hpolicy done hb
    · exact ih (fun w hw => hcustom w (List.mem_cons_of_mem _ hw)) v hv

theorem Turns.derives {c : Calculation} {s t : SizeSpec} {us : List Turn} {l : List LogEntry}
    (h : c.Turns s us l t) (hd : ∀ u ∈ us, u.step.runsPolicy = false → u.Derives) :
    ∀ u ∈ us, u.Derives :=
  h.of_custom derives_of_builtIn hd

/-- If the custom steps of a run derive, then so do all of its turns. -/
theorem history_derives {c : Calculation} {n : Nat} {s : SizeSpec}
    (hd : ∀ u ∈ (c.history n s).turns, u.step.runsPolicy = false → u.Derives) :
    ∀ u ∈ (c.history n s).turns, u.Derives := by
  obtain ⟨l, t, hts⟩ := c.turns_of_history n s
  exact hts.derives hd

/-- The invariant of the queue: what was pending and what has been appended is what has been
executed and what is pending. -/
theorem Turns.queue_append {c : Calculation} {s t : SizeSpec} {us : List Turn} {l : List LogEntry}
    (h : c.Turns s us l t) (hd : ∀ u ∈ us, u.Derives) :
    s.queue ++ us.flatMap (fun u => u.appended.map c.stepFor) = us.map Turn.step ++ t.queue := by
  induction h with
  | nil s => simp
  | @cons s next t step rest u us l l' front done later ih =>
    obtain ⟨hstep, _, _⟩ := turn_eq_ok done
    obtain ⟨hnext, _, _⟩ := turn_derived done (hd u List.mem_cons_self)
    have hrest := ih fun v hv => hd v (List.mem_cons_of_mem u hv)
    rw [hnext] at hrest
    rw [front, hstep.symm, List.flatMap_cons, List.map_cons, List.cons_append, List.cons_append,
      ← List.append_assoc]
    exact congrArg (u.step :: ·) hrest

/-- What is pending at each turn: of all that was enqueued before, what has not been executed. -/
theorem Turns.pending_at {c : Calculation} {s t : SizeSpec} {us : List Turn} {l : List LogEntry}
    (h : c.Turns s us l t) (hd : ∀ u ∈ us, u.Derives) (i : Nat) (hi : i < us.length) :
    us[i].step :: us[i].given.queue =
      (s.queue ++ (us.take i).flatMap fun u => u.appended.map c.stepFor).drop i := by
  induction h generalizing i with
  | nil s => simp at hi
  | @cons s next t step rest u us l l' front done later ih =>
    obtain ⟨hstep, hgiven, _⟩ := turn_eq_ok done
    obtain ⟨hnext, _, _⟩ := turn_derived done (hd u List.mem_cons_self)
    cases i with
    | zero =>
      show u.step :: u.given.queue = _
      rw [hstep, hgiven, front]
      simp [SizeSpec.withQueue]
    | succ i =>
      have hi' : i < us.length := Nat.lt_of_succ_lt_succ hi
      have hrest := ih (fun v hv => hd v (List.mem_cons_of_mem u hv)) i hi'
      rw [hnext] at hrest
      show us[i].step :: us[i].given.queue = _
      rw [hrest, front, List.take_succ_cons, List.flatMap_cons]
      simp [SizeSpec.withQueue]

end Calculation

namespace Engine

/-- A completed calculation whose custom steps derive executes what was enqueued: the references
of the size, then those that the first step appended, then those of the second, and so on.
Each is executed exactly once and in this order: the turn at place `i` executes the reference
enqueued at place `i`, and what waits behind it is the rest of what was enqueued before. -/
theorem executed_eq_enqueued {e : Engine} {size : Value} {real : RealDimension} {s t : SizeSpec}
    (hs : (e.normalize size).result = .ok s) (ht : (e.calculate size real).result = .ok t)
    (hd : ∀ u ∈ (e.historyOf real s).turns, u.step.runsPolicy = false → u.Derives) :
    let us := (e.historyOf real s).turns
    let resolved := List.map (Size.stepFor e.config e.registry)
    let enqueued := fun i => Size.initialReferences e.config size ++ (us.take i).flatMap Turn.appended
    (e.historyOf real s).executed = resolved (enqueued us.length) ∧
      (e.historyOf real s).executed = us.map Turn.step ∧
      ∀ (i : Nat) (hi : i < us.length),
        us[i].step :: us[i].given.queue = (resolved (enqueued i)).drop i := by
  obtain ⟨us, l, hts, hq, he⟩ := turns_of_calculate hs ht
  rw [he] at hd ⊢
  replace hd := hts.derives hd
  have hqueue := Size.normalize_queue hs
  have hmap : ∀ vs : List Turn, s.queue ++ vs.flatMap (fun u =>
      u.appended.map (e.calculation real s).stepFor) =
      (Size.initialReferences e.config size ++ vs.flatMap Turn.appended).map
        (Size.stepFor e.config e.registry) := by
    intro vs
    rw [hqueue, List.map_append, List.map_flatMap]
    rfl
  have hexec : (⟨us, l, .emptied t⟩ : History).executed = us.map Turn.step := List.append_nil _
  intro us' resolved enqueued
  refine ⟨?_, hexec, ?_⟩
  · have hall := hts.queue_append hd
    rw [hq, List.append_nil, hmap] at hall
    show (⟨us, l, .emptied t⟩ : History).executed = (Size.initialReferences e.config size ++
      (us.take us.length).flatMap Turn.appended).map (Size.stepFor e.config e.registry)
    rw [hexec, List.take_length, hall]
  · intro i hi
    have hat := hts.pending_at hd i hi
    rw [hmap] at hat
    exact hat

/-- A custom function that asks for a check and for a name that nobody knows. -/
def asker : Callable := ⟨some "asker", 0⟩

/-- An engine with that function, and with checks in the place of unknown names. -/
def askingEngine : Engine :=
  { config := { EngineConfig.standard with defaultPolicy := .check }
    functions := Recipe.functions #[.andThen [.str "check", .str "nope"]] }

/-- A size that has the function run before a check. -/
def askingSize : Mapping :=
  [(.str "function", .list [.callable asker, .str "check"]), (.str "width", .dim .pixel (.int 10))]

/-- What the calculation of that size knows, with some steps still to run. -/
def askingSpec (queue : List Step) : SizeSpec :=
  ⟨.pixel (.int 10), .unspecified, queue, askingSize, []⟩

/-- The turn of a check in that calculation, with the steps that wait behind it. -/
def askingCheck (queue : List Step) : Turn :=
  ⟨.ofPolicy .check, askingSpec queue, (askingSpec queue).toValue⟩

/-- What the function asks for runs after the check that was there before. -/
theorem executed_eq_enqueued_asking :
    (askingEngine.calculate (.map askingSize) ⟨.int 4, .int 4, by decide, by decide⟩).result =
      .ok (askingSpec []) ∧
    (askingEngine.historyOf ⟨.int 4, .int 4, by decide, by decide⟩
      (askingSpec [.ofCallable asker, .ofPolicy .check])).executed =
      [.callable asker, .str "check", .str "check", .str "nope"].map
        (Size.stepFor askingEngine.config askingEngine.registry) := by
  have hs : (askingEngine.normalize (.map askingSize)).result =
      .ok (askingSpec [.ofCallable asker, .ofPolicy .check]) := rfl
  have ht : (askingEngine.calculate (.map askingSize) ⟨.int 4, .int 4, by decide, by decide⟩).result =
      .ok (askingSpec []) := rfl
  have hturns : (askingEngine.historyOf ⟨.int 4, .int 4, by decide, by decide⟩
      (askingSpec [.ofCallable asker, .ofPolicy .check])).turns =
      [⟨.ofCallable asker, askingSpec [.ofPolicy .check],
        (askingSpec [.ofPolicy .check]).andThen [.str "check", .str "nope"]⟩,
        askingCheck [.ofPolicy .check, .ofPolicy .check], askingCheck [.ofPolicy .check],
        askingCheck []] := rfl
  refine ⟨ht, (executed_eq_enqueued hs ht ?_).1⟩
  intro u hu hcustom
  rw [hturns] at hu
  simp only [List.mem_cons, List.not_mem_nil, or_false] at hu
  rcases hu with rfl | rfl | rfl | rfl
  · exact Turn.derives_of_andThen _ _ _ rfl
  all_goals cases hcustom

end Engine

end ImageSizing
