import ImageSizing.Proofs.Size.Defaults

/-!
# Warnings about functions

Two warnings are about references: that a name is not known, and that an object is no function.
Neither reading nor a policy writes one of them; a calculation does so where it resolves references
(`normalize_functionWarnings`), and where a custom function has the engine do so.  What one turn
writes gives what a run writes:

    (c.history n s).entries, of these the warnings about functions =
      step by step, its own ones and those about what it enqueued   (history_functionWarnings)
-/

namespace ImageSizing

/-- Whether a line is a warning about a reference that stands for no step. -/
def LogEntry.isFunctionWarning : LogEntry → Bool
  | .warning text => "Unknown size function '".toList.isPrefixOf text.toList ||
      "Invalid object of type ".toList.isPrefixOf text.toList
  | .error _ => false

namespace Logged

variable {α β : Type}

/-- The warnings about functions that a computation writes. -/
def functionWarnings (x : Logged α) : List LogEntry := x.entries.filter LogEntry.isFunctionWarning

theorem functionWarnings_of_ok {x : Logged α} {a : α} (f : α → Logged β) (h : x.result = .ok a) :
    (x >>= f).functionWarnings = x.functionWarnings ++ (f a).functionWarnings := by
  unfold functionWarnings
  rw [entries_bind_ok f h, List.filter_append]

theorem functionWarnings_of_error {x : Logged α} {e : Failure} (f : α → Logged β)
    (h : x.result = .error e) : (x >>= f).functionWarnings = x.functionWarnings := by
  unfold functionWarnings
  rw [bind_error f h]

/-- Parts that write none make a sequence that writes none. -/
theorem functionWarnings_bind {x : Logged α} {f : α → Logged β} (hx : x.functionWarnings = [])
    (hf : ∀ a, x.result = .ok a → (f a).functionWarnings = []) : (x >>= f).functionWarnings = [] := by
  cases hr : x.result with
  | ok a => rw [functionWarnings_of_ok f hr, hx, hf a hr, List.append_nil]
  | error e => rw [functionWarnings_of_error f hr, hx]

theorem bind_pure_eq_map (x : Logged α) (f : α → β) :
    (x >>= fun a => pure (f a)) = ⟨x.entries, x.result.map f⟩ := by
  obtain ⟨entries, result⟩ := x
  cases result with
  | error e => rfl
  | ok a => exact congrArg (Logged.mk · _) (List.append_nil entries)

theorem functionWarnings_ofFaulty (x : Except Fault α) : (ofFaulty x).functionWarnings = [] := by
  cases x <;> rfl

theorem functionWarnings_ofExcept (x : Except Failure α) : (ofExcept x).functionWarnings = [] := by
  cases x <;> rfl

end Logged

open Logged

/-! ## Where they are written -/

namespace Size

theorem isPrefixOf_append (a b : String) : a.toList.isPrefixOf (a ++ b).toList = true := by
  rw [String.toList_append, List.isPrefixOf_iff_prefix]
  exact List.prefix_append _ _

theorem isFunctionWarning_warningFor (cfg : EngineConfig) (r : Registry) (ref : Value) :
    (LogEntry.warning (warningFor cfg r ref)).isFunctionWarning = true := by
  have hunknown : ∀ text, (LogEntry.warning ("Unknown size function '" ++ text)).isFunctionWarning = true :=
    fun text => Bool.or_eq_true_iff.2 (.inl (isPrefixOf_append _ text))
  have hobject : ∀ typeName,
      (LogEntry.warning (unusableObject cfg r typeName)).isFunctionWarning = true := by
    intro typeName
    unfold unusableObject
    simp only [String.append_assoc]
    exact Bool.or_eq_true_iff.2 (.inr (isPrefixOf_append _ _))
  cases ref with
  | str name =>
    show (LogEntry.warning (unknownName cfg r name)).isFunctionWarning = true
    unfold unknownName
    simp only [String.append_assoc]
    exact hunknown _
  | _ => exact hobject _

theorem filter_reported (cfg : EngineConfig) (r : Registry) (refs : List Value) :
    (reported cfg r refs).filter LogEntry.isFunctionWarning = reported cfg r refs := by
  refine List.filter_eq_self.2 fun l hl => ?_
  obtain ⟨ref, -, rfl⟩ := List.mem_map.1 hl
  exact isFunctionWarning_warningFor cfg r ref

theorem functionWarnings_assembled (cfg : EngineConfig) (r : Registry)
    (axes : Except Fault (Dimension × Dimension)) (refs : List Value)
    (original : Except Fault Mapping) (extras : Mapping) :
    (assembled cfg r axes refs original extras).functionWarnings =
      if axes.isOk then reported cfg r refs else [] := by
  cases axes with
  | error f => rfl
  | ok axes => exact filter_reported cfg r refs

theorem functionWarnings_canonical (cfg : EngineConfig) (raw : Value) :
    (canonical cfg raw).functionWarnings = [] := by
  refine functionWarnings_bind ?_ fun m _ => rfl
  cases raw with
  | spec w h fs o x => exact functionWarnings_ofFaulty _
  | str raw =>
    show (ofText cfg raw).functionWarnings = []
    unfold ofText
    split
    · rfl
    · split
      · unfold ofPair
        split <;> rfl
      · rfl
  | _ => rfl

/-- Normalizing a size writes the warnings about its references, if both axes can be read. -/
theorem normalize_functionWarnings (cfg : EngineConfig) (r : Registry) (raw : Value) :
    (normalize cfg r raw).functionWarnings =
      if axesReadable cfg raw then reported cfg r (initialReferences cfg raw) else [] := by
  by_cases hraw : ∃ w h fs o x, raw = .spec w h fs o x
  · obtain ⟨w, h, fs, o, x, rfl⟩ := hraw
    show (normalizeSpec cfg r w h fs o x).functionWarnings = _
    rw [normalizeSpec_eq_assembled, functionWarnings_assembled]
    rfl
  · have hspec : ∀ w h fs o x, raw ≠ .spec w h fs o x := fun w h fs o x heq => hraw ⟨w, h, fs, o, x, heq⟩
    rw [normalize_of_not_spec hspec]
    cases hm : (canonical cfg raw).result with
    | ok m =>
      obtain ⟨hrefs, haxes⟩ := initialReferences_of_canonical hspec (canonical_eq_pure hm)
      rw [functionWarnings_of_ok _ hm, functionWarnings_canonical, hrefs, haxes, List.nil_append]
      show (normalizeCanonical cfg r m).functionWarnings = _
      rw [normalizeCanonical_eq_assembled, functionWarnings_assembled]
    | error f =>
      rw [functionWarnings_of_error _ hm, functionWarnings_canonical, axesReadable_of_error hspec hm]
      rfl

end Size

namespace Scaling

theorem isFunctionWarning_invalidHeight (text : String) :
    (LogEntry.warning ("Invalid height '" ++ text)).isFunctionWarning = false := by
  show (_ || _) = false
  rw [String.toList_append]
  rfl

/-- The warning about a height that is not used is none about functions. -/
theorem functionWarnings_dropInvalidHeight (s : SizeSpec) :
    (dropInvalidHeight s).functionWarnings = [] := by
  have hwarn : ∀ text, (warn ("Invalid height '" ++ text ++ "' specified, ignoring it")).functionWarnings = [] := by
    intro text
    refine List.filter_eq_nil_iff.2 fun l hl => ?_
    rw [List.mem_singleton.1 hl, String.append_assoc, isFunctionWarning_invalidHeight]
    exact Bool.false_ne_true
  unfold dropInvalidHeight
  split
  · exact functionWarnings_bind (functionWarnings_ofFaulty _) fun _ _ =>
      functionWarnings_bind (hwarn _) fun _ _ => rfl
  · rfl

theorem functionWarnings_validate (s : SizeSpec) : (validate s).functionWarnings = [] := by
  unfold validate
  split
  · exact functionWarnings_bind (functionWarnings_ofFaulty _) fun _ _ => rfl
  · refine functionWarnings_bind (functionWarnings_dropInvalidHeight s) fun t _ => ?_
    split
    · rfl
    · exact functionWarnings_bind (functionWarnings_ofFaulty _) fun _ _ => rfl

/-- A policy writes no warning about functions. -/
theorem functionWarnings_apply (p : Policy) (s : SizeSpec) (real : RealDimension) :
    (p.apply s real).functionWarnings = [] := by
  have hvalidate := functionWarnings_validate s
  cases p with
  | contain => exact functionWarnings_bind hvalidate fun _ _ => functionWarnings_ofExcept _
  | cover => exact functionWarnings_bind hvalidate fun _ _ => functionWarnings_ofExcept _
  | check => exact hvalidate
  | exact =>
    refine functionWarnings_bind hvalidate fun t _ => ?_
    split
    · rfl
    · exact functionWarnings_bind (functionWarnings_ofFaulty _) fun _ _ => rfl

end Scaling

/-! ## Turns -/

namespace Turn

/-- The answer is absent, or the given size with other axes and references appended, whatever
snapshot it has. -/
def Extends (u : Turn) : Prop :=
  u.answer.isTruthy = false ∨
    ∃ width height refs original, u.answer =
      .spec width height (u.given.queue.map .step ++ refs) original u.given.extras

theorem Derives.extends {u : Turn} (h : u.Derives) : u.Extends := by
  rcases h with hfalsy | ⟨width, height, refs, hanswer⟩
  · exact .inl hfalsy
  · exact .inr ⟨width, height, refs, _, hanswer⟩

/-- The axes that a turn leads to. -/
def axes (g : Grammar) (u : Turn) : Except Fault (Dimension × Dimension) :=
  match u.answer with
  | .spec width height _ _ _ => Size.readAxes g width height
  | _ => .ok (u.given.width, u.given.height)

theorem axes_of_falsy {u : Turn} (h : u.answer.isTruthy = false) (g : Grammar) :
    u.axes g = .ok (u.given.width, u.given.height) := by
  unfold axes
  cases ha : u.answer with
  | spec w h' fs o x =>
    rw [ha] at h
    cases h
  | _ => rfl

end Turn

theorem Engine.renormalize_extended (e : Engine) (original : Mapping) {u : Turn} (h : u.Extends) :
    e.renormalize original (answerOr u.answer u.given) =
      Size.assembled e.config e.registry (u.axes e.config.grammar)
        (u.given.queue.map .step ++ u.appended) (.ok original) u.given.extras := by
  rcases h with hfalsy | ⟨width, height, refs, o, hanswer⟩
  · rw [Turn.axes_of_falsy hfalsy, Turn.appended_of_falsy hfalsy, List.append_nil]
    unfold renormalize answerOr Size.assembled
    rw [hfalsy, if_neg Bool.false_ne_true, Size.normalize_toValue, Size.reported_steps,
      Size.map_stepFor_steps]
    rfl
  · have haxes : u.axes e.config.grammar = Size.readAxes e.config.grammar width height := by
      unfold Turn.axes
      rw [hanswer]
    rw [Turn.appended_of_spec hanswer, haxes, hanswer, ← Size.normalizeSpec_eq_assembled]
    rfl

namespace Calculation

/-- What a step answers. -/
def performs (c : Calculation) (step : Step) (given : SizeSpec) : Logged Value :=
  c.engine.perform c.resolver step given c.real

/-- Whatever a step answers derives from what it was given. -/
def Derives (c : Calculation) (step : Step) (given : SizeSpec) : Prop :=
  ∀ answer, (c.performs step given).result = .ok answer → Turn.Derives ⟨step, given, answer⟩

/-- The warnings about functions that a custom function has the engine write. -/
def ownWarnings (c : Calculation) (step : Step) (given : SizeSpec) : List LogEntry :=
  if step.runsPolicy then [] else (c.performs step given).functionWarnings

theorem performs_builtIn (c : Calculation) {step : Step} (h : step.runsPolicy = true) (given : SizeSpec) :
    ∃ p : Policy, c.performs step given = p.apply given c.real >>= fun s => pure s.toValue := by
  obtain ⟨p, haction⟩ := Step.exists_policy h
  unfold performs Engine.perform
  rw [haction]
  exact ⟨p, rfl⟩

theorem derives_builtIn (c : Calculation) {step : Step} (h : step.runsPolicy = true) (given : SizeSpec) :
    c.Derives step given := by
  obtain ⟨p, haction⟩ := Step.exists_policy h
  intro answer hanswer
  have hresized : given.ResizedBy answer := resizedBy_of_policy haction hanswer
  exact (Turn.derives_of_resized (u := ⟨step, given, answer⟩) hresized).1

theorem functionWarnings_performs (c : Calculation) (step : Step) (given : SizeSpec) :
    (c.performs step given).functionWarnings = c.ownWarnings step given := by
  unfold ownWarnings
  cases h : step.runsPolicy with
  | false => rw [if_neg Bool.false_ne_true]
  | true =>
    obtain ⟨p, hp⟩ := c.performs_builtIn h given
    rw [hp, if_pos rfl]
    exact functionWarnings_bind (Scaling.functionWarnings_apply p given c.real) fun _ _ => rfl

/-- A turn fails as its step does, or else its answer is normalized. -/
theorem turn_of_error {c : Calculation} {step : Step} {given : SizeSpec} {f : Failure}
    (h : (c.performs step given).result = .error f) :
    c.turn step given = ⟨(c.performs step given).entries, .error f⟩ :=
  bind_error _ h

/-- What the answer of a turn is normalized to, if it extends the size that the step was given. -/
def follow (c : Calculation) (u : Turn) : Logged SizeSpec :=
  Size.assembled c.engine.config c.engine.registry (u.axes c.engine.config.grammar)
    (u.given.queue.map .step ++ u.appended) (.ok c.original) u.given.extras

theorem turn_of_ok {c : Calculation} {u : Turn} (h : (c.performs u.step u.given).result = .ok u.answer)
    (hext : u.Extends) :
    c.turn u.step u.given = ⟨(c.performs u.step u.given).entries ++ (c.follow u).entries,
      (c.follow u).result.map fun next => (u, next)⟩ := by
  have hturn : c.turn u.step u.given = c.performs u.step u.given >>= fun answer =>
      c.engine.renormalize c.original (Engine.answerOr answer u.given) >>= fun next =>
        pure (⟨u.step, u.given, answer⟩, next) := rfl
  rw [hturn, bind_ok _ h, Engine.renormalize_extended _ _ hext, bind_pure_eq_map]
  rfl

/-- The two outcomes of what follows a turn: no axes and no line, or a size and the warnings about
the references that the turn has appended. -/
theorem follow_cases (c : Calculation) (u : Turn) :
    (∃ f, c.follow u = ⟨[], .error f⟩) ∨
      ∃ next, c.follow u = ⟨Size.reported c.engine.config c.engine.registry u.appended, .ok next⟩ := by
  unfold follow Size.assembled
  cases u.axes c.engine.config.grammar with
  | error f => exact .inl ⟨_, rfl⟩
  | ok axes =>
    rw [Size.reported_append, Size.reported_steps, List.nil_append]
    exact .inr ⟨_, rfl⟩

/-- The ways in which a turn may end whose step derives: the step fails, its answer cannot be
normalized, or it leads to another size. -/
theorem turn_cases {c : Calculation} {step : Step} {given : SizeSpec} (hd : c.Derives step given) :
    (∃ f, (c.performs step given).result = .error f ∧
      c.turn step given = ⟨(c.performs step given).entries, .error f⟩) ∨
    (∃ answer f, (c.performs step given).result = .ok answer ∧
      c.follow ⟨step, given, answer⟩ = ⟨[], .error f⟩ ∧
      c.turn step given = ⟨(c.performs step given).entries, .error f⟩) ∨
    ∃ u next, u.step = step ∧ u.given = given ∧ (c.performs step given).result = .ok u.answer ∧
      c.follow u = ⟨Size.reported c.engine.config c.engine.registry u.appended, .ok next⟩ ∧
      c.turn step given = ⟨(c.performs step given).entries ++
        Size.reported c.engine.config c.engine.registry u.appended, .ok (u, next)⟩ := by
  cases h : (c.performs step given).result with
  | error f => exact .inl ⟨f, rfl, turn_of_error h⟩
  | ok answer =>
    right
    have hext : Turn.Extends ⟨step, given, answer⟩ := (hd answer h).extends
    have hturn : c.turn step given = _ := turn_of_ok (u := ⟨step, given, answer⟩) h hext
    rcases c.follow_cases ⟨step, given, answer⟩ with ⟨f, hf⟩ | ⟨next, hnext⟩
    · refine .inl ⟨answer, f, rfl, hf, ?_⟩
      rw [hturn, hf, List.append_nil]
      rfl
    · refine .inr ⟨⟨step, given, answer⟩, next, rfl, rfl, rfl, hnext, ?_⟩
      rw [hturn, hnext]
      rfl

end Calculation

/-! ## Runs -/

/-- A step that a run has come to, the size it was given, and the references that it has put into the
queue, none if it failed or its answer could not be normalized. -/
structure Visit where
  step : Step
  given : SizeSpec
  enqueued : List Value

/-- The steps that a run has come to, one that failed at the end. -/
def History.visits (h : History) : List Visit :=
  h.turns.map (fun u => ⟨u.step, u.given, u.appended⟩) ++
    match h.ending with
    | .failed step given _ => [⟨step, given, []⟩]
    | _ => []

theorem History.visits_after (h : History) (u : Turn) (l : List LogEntry) :
    (h.after [u] l).visits = ⟨u.step, u.given, u.appended⟩ :: h.visits := rfl

namespace Calculation

/-- The warnings about functions that come of one step: its own ones, and those about what it has
enqueued. -/
def warningsOf (c : Calculation) (a : Visit) : List LogEntry :=
  c.ownWarnings a.step a.given ++ Size.reported c.engine.config c.engine.registry a.enqueued

theorem filter_turn_of_ok {c : Calculation} {step : Step} {given next : SizeSpec} {u : Turn}
    {l : List LogEntry} (hd : c.Derives step given) (h : c.turn step given = ⟨l, .ok (u, next)⟩) :
    l.filter LogEntry.isFunctionWarning = c.warningsOf ⟨u.step, u.given, u.appended⟩ := by
  rcases turn_cases hd with ⟨f, -, hturn⟩ | ⟨answer, f, -, -, hturn⟩ | ⟨u', next', rfl, rfl, -, -, hturn⟩
  · cases hturn.symm.trans h
  · cases hturn.symm.trans h
  · obtain ⟨rfl, hresult⟩ := Logged.mk.inj (hturn.symm.trans h)
    cases hresult
    rw [List.filter_append, Size.filter_reported]
    exact congrArg (· ++ _) (c.functionWarnings_performs _ _)

theorem filter_turn_of_error {c : Calculation} {step : Step} {given : SizeSpec} {f : Failure}
    {l : List LogEntry} (hd : c.Derives step given) (h : c.turn step given = ⟨l, .error f⟩) :
    l.filter LogEntry.isFunctionWarning = c.warningsOf ⟨step, given, []⟩ := by
  have hentries : c.turn step given = ⟨(c.performs step given).entries, .error f⟩ := by
    rcases turn_cases hd with ⟨f', -, hturn⟩ | ⟨answer, f', -, -, hturn⟩ | ⟨u, next, -, -, -, -, hturn⟩
    · cases (Logged.mk.inj (hturn.symm.trans h)).2
      exact hturn
    · cases (Logged.mk.inj (hturn.symm.trans h)).2
      exact hturn
    · cases hturn.symm.trans h
  rw [← (Logged.mk.inj (hentries.symm.trans h)).1]
  exact (c.functionWarnings_performs step given).trans (List.append_nil _).symm

/-- A property of all steps of a history that begins with a turn. -/
theorem forall_visits_turn {c : Calculation} {n : Nat} {s next : SizeSpec} {step : Step}
    {rest : List Step} {u : Turn} {l : List LogEntry} {P : Visit → Prop} (front : s.queue = step :: rest)
    (done : c.turn step (s.withQueue rest) = ⟨l, .ok (u, next)⟩)
    (h : ∀ a ∈ (c.history (n + 1) s).visits, P a) :
    P ⟨u.step, u.given, u.appended⟩ ∧ ∀ a ∈ (c.history n next).visits, P a := by
  rw [history_turn c n front done, History.visits_after] at h
  exact List.forall_mem_cons.1 h

/-- A run that has steps to go comes to the first step of its queue. -/
theorem exists_first_visit (c : Calculation) (n : Nat) {s : SizeSpec} {step : Step} {rest : List Step}
    (front : s.queue = step :: rest) :
    ∃ a ∈ (c.history (n + 1) s).visits, a.step = step ∧ a.given = s.withQueue rest := by
  cases hturn : c.turn step (s.withQueue rest) with
  | mk l result =>
  cases result with
  | error f =>
    rw [history_failed c n front hturn]
    exact ⟨_, List.mem_singleton.2 rfl, rfl, rfl⟩
  | ok p =>
    obtain ⟨u, next⟩ := p
    obtain ⟨hstep, hgiven, -⟩ := turn_eq_ok hturn
    rw [history_turn c n front hturn, History.visits_after]
    exact ⟨_, List.mem_cons_self, hstep, hgiven⟩

/-- The warnings about functions that a run writes, step by step. -/
theorem history_functionWarnings (c : Calculation) (n : Nat) (s : SizeSpec)
    (hd : ∀ a ∈ (c.history n s).visits, c.Derives a.step a.given) :
    (c.history n s).entries.filter LogEntry.isFunctionWarning =
      (c.history n s).visits.flatMap c.warningsOf := by
  induction n generalizing s with
  | zero =>
    cases hq : s.queue with
    | nil => rw [history_nil c 0 hq]; rfl
    | cons step rest => rw [history_zero c (by simp [hq])]; rfl
  | succ n ih =>
    cases hq : s.queue with
    | nil => rw [history_nil c (n + 1) hq]; rfl
    | cons step rest =>
      obtain ⟨a, ha, hstep, hgiven⟩ := c.exists_first_visit n hq
      have hfirst : c.Derives step (s.withQueue rest) := hstep ▸ hgiven ▸ hd a ha
      cases hturn : c.turn step (s.withQueue rest) with
      | mk l result =>
      cases result with
      | error f =>
        rw [history_failed c n hq hturn]
        exact (filter_turn_of_error hfirst hturn).trans (List.append_nil _).symm
      | ok p =>
        obtain ⟨u, next⟩ := p
        obtain ⟨-, hlater⟩ := forall_visits_turn hq hturn hd
        rw [history_turn c n hq hturn, History.visits_after, List.flatMap_cons, ← ih next hlater,
          ← filter_turn_of_ok hfirst hturn]
        exact List.filter_append _ _

/-- The failure at the limit is no warning. -/
theorem functionWarnings_limitReached (e : Engine) (original : Mapping) (pending : Nat) :
    (e.limitReached original pending).functionWarnings = [] := by
  cases h : Engine.describable original with
  | true =>
    rw [e.limitReached_describable pending h]
    rfl
  | false =>
    rw [e.limitReached_undescribable pending h]
    rfl

theorem functionWarnings_outcome (c : Calculation) (h : History) :
    (h.outcome c).functionWarnings = h.entries.filter LogEntry.isFunctionWarning := by
  unfold History.outcome
  cases h.ending with
  | emptied s => rfl
  | stopped s =>
    have hlimit := functionWarnings_limitReached c.engine c.original s.queue.length
    exact (List.filter_append _ _).trans ((congrArg (_ ++ ·) hlimit).trans (List.append_nil _))
  | failed step given f => rfl

end Calculation

end ImageSizing
