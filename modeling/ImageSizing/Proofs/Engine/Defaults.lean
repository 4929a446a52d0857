import ImageSizing.Proofs.Dimension.Faults
import ImageSizing.Proofs.Engine.Blind
import ImageSizing.Proofs.Engine.Snapshot

/-!
# Running with defaults

An engine whose custom functions append the name of the default policy wherever they would append a
reference that stands for no step (`withDefaults`) runs a size with defaults as the engine runs the
size itself.  Turn by turn both are given the same size, up to the snapshot, and the log of the
second run lacks the warnings about what the first run could not resolve (`history_withDefaults`):

    Thins (log of the run) (reported references, step by step) (log of the run with defaults)
-/

namespace ImageSizing

open Logged

/-- A script with a function applied to its answer. -/
def Script.mapAnswer (f : Value → Value) : Script → Script
  | .done answer => .done (f answer)
  | .fail fault => .fail fault
  | .elaborate size next => .elaborate size fun m => (next m).mapAnswer f
  | .normalize size next => .normalize size fun s => (next s).mapAnswer f
  | .calculate size real next => .calculate size real fun s => (next s).mapAnswer f
  | .toPixels size real next => .toPixels size real fun p => (next p).mapAnswer f
  | .apply policy size real next => .apply policy size real fun s => (next s).mapAnswer f

/-- The same engine with the name of the default policy in the place of each reference in the answers
of its functions that stands for no step. -/
def Engine.withDefaults (e : Engine) : Engine :=
  { e with functions := fun c s real =>
      (e.functions c s real).mapAnswer (Size.withDefaults e.config e.registry) }

namespace Engine

theorem runScript_mapAnswer (e : Engine) (resolver : Resolver) (f : Value → Value) (script : Script) :
    e.withDefaults.runScript resolver (script.mapAnswer f) =
      e.runScript resolver script >>= fun answer => pure (f answer) := by
  have hbind : ∀ {α : Type} (x : Logged α) {g h : α → Logged Value},
      (∀ a, g a = h a >>= fun answer => pure (f answer)) →
      x >>= g = (x >>= h) >>= fun answer => pure (f answer) := by
    intro α x g h hgh
    rw [bind_assoc]
    exact congrArg (x >>= ·) (funext hgh)
  induction script with
  | done answer => rfl
  | fail fault => rfl
  | elaborate size next ih => exact hbind (e.elaborate size) ih
  | normalize size next ih => exact hbind (e.normalize size) ih
  | calculate size real next ih => exact hbind (resolver size real) ih
  | toPixels size real next ih =>
    exact hbind (resolver size real) fun s => hbind (pixelsOf s real) ih
  | apply policy size real next ih => exact hbind (policy.apply size real) ih

end Engine

/-! ## Answers -/

namespace Size

variable {cfg : EngineConfig} {r : Registry}

theorem isTruthy_withDefaults (v : Value) : (withDefaults cfg r v).isTruthy = v.isTruthy := by
  cases v with
  | map m =>
    cases m with
    | nil => rfl
    | cons e m =>
      obtain ⟨k, v⟩ := e
      show (!(Mapping.adjust "function" (defaultedEntry cfg r) ((k, v) :: m)).isEmpty) = true
      cases h : Mapping.isKey "function" k with
      | true => rw [Mapping.adjust_cons_of_isKey h]; rfl
      | false => rw [Mapping.adjust_cons_of_not_isKey h]; rfl
  | _ => rfl

theorem withDefaults_toValue (s : SizeSpec) : withDefaults cfg r s.toValue = s.toValue := by
  have hqueue : (s.queue.map Value.step ++ []).map (defaulted cfg r) = s.queue.map .step ++ [] := by
    rw [List.append_nil, defaulted_steps]
  exact congrArg (Value.spec _ _ · _ _) hqueue

end Size

theorem Value.SameButSnapshot.eq_spec {w h : Value} {fs : List Value} {o x : Mapping} {v : Value}
    (hv : (Value.spec w h fs o x).SameButSnapshot v) : ∃ o', v = .spec w h fs o' x := by
  cases v with
  | spec w' h' fs' o' x' =>
    cases hv
    exact ⟨o', rfl⟩
  | _ => cases hv

theorem Value.SameButSnapshot.isTruthy_eq {v v' : Value} (h : v.SameButSnapshot v') :
    v'.isTruthy = v.isTruthy := by
  have hown : ∀ w : Value, (w.withOriginal []).isTruthy = w.isTruthy := by
    intro w
    cases w <;> rfl
  rw [← hown v, ← hown v', h]

namespace Calculation

variable {c : Calculation} {step : Step} {given : SizeSpec} {original : Mapping}

def withDefaults (c : Calculation) (original : Mapping) : Calculation :=
  ⟨c.engine.withDefaults, c.resolver, c.real, original⟩

theorem performs_withDefaults (c : Calculation) (original : Mapping) (step : Step) (given : SizeSpec) :
    (c.withDefaults original).performs step given =
      c.performs step given >>= fun answer =>
        pure (Size.withDefaults c.engine.config c.engine.registry answer) := by
  cases h : step.runsPolicy with
  | true =>
    obtain ⟨p, haction⟩ := Step.exists_policy h
    unfold performs Engine.perform
    rw [haction]
    show p.apply given c.real >>= (fun s => pure s.toValue) = _
    rw [bind_assoc]
    exact congrArg (p.apply given c.real >>= ·)
      (funext fun s => congrArg pure (Size.withDefaults_toValue s).symm)
  | false =>
    unfold performs Engine.perform
    cases haction : step.action with
    | builtIn p =>
      unfold Step.runsPolicy at h
      rw [haction] at h
      cases h
    | custom f => exact c.engine.runScript_mapAnswer c.resolver _ _

/-- The same answer up to the snapshot, with defaults. -/
theorem alike_performs (hb : c.Blind step given) (hlike : given.original.Resembles original) :
    Alike (fun answer answer' => ∃ v, answer.SameButSnapshot v ∧
        answer' = Size.withDefaults c.engine.config c.engine.registry v)
      (c.performs step given) ((c.withDefaults original).performs step (given.withOriginal original)) := by
  rw [performs_withDefaults, ← Logged.bind_pure (c.performs step given)]
  exact (hb original hlike).bind fun answer v hv => .pure ⟨v, hv, rfl⟩

/-- What an answer that derives is with defaults: it has the same axes, and the appended references
with defaults. -/
theorem extends_withDefaults {u u' : Turn} {v : Value} {cfg : EngineConfig} {r : Registry}
    (hd : u.Derives) (hv : u.answer.SameButSnapshot v) (hgiven : u'.given = u.given.withOriginal original)
    (hanswer : u'.answer = Size.withDefaults cfg r v) :
    u'.Extends ∧ u'.axes cfg.grammar = u.axes cfg.grammar ∧
      u'.appended = u.appended.map (Size.defaulted cfg r) := by
  rcases hd with hfalsy | ⟨width, height, refs, hderived⟩
  · have hfalsy' : u'.answer.isTruthy = false := by
      rw [hanswer, Size.isTruthy_withDefaults, hv.isTruthy_eq, hfalsy]
    refine ⟨.inl hfalsy', ?_, ?_⟩
    · rw [Turn.axes_of_falsy hfalsy', Turn.axes_of_falsy hfalsy, hgiven]
      rfl
    · rw [Turn.appended_of_falsy hfalsy', Turn.appended_of_falsy hfalsy]
      rfl
  · rw [hderived] at hv
    obtain ⟨o, rfl⟩ := hv.eq_spec
    have hderived' : u'.answer = .spec width height
        (u'.given.queue.map .step ++ refs.map (Size.defaulted cfg r)) o u'.given.extras := by
      rw [hanswer, hgiven]
      show Value.spec width height ((u.given.queue.map Value.step ++ refs).map (Size.defaulted cfg r)) o _ = _
      rw [List.map_append, Size.defaulted_steps]
      rfl
    refine ⟨.inr ⟨_, _, _, _, hderived'⟩, ?_, ?_⟩
    · unfold Turn.axes
      rw [hderived', hderived]
    · rw [Turn.appended_of_spec hderived', Turn.appended_of_spec hderived]

/-- What follows a turn is the same with defaults, without the warnings. -/
theorem follow_withDefaults {u u' : Turn} (hgiven : u'.given = u.given.withOriginal original)
    (haxes : u'.axes c.engine.config.grammar = u.axes c.engine.config.grammar)
    (happended : u'.appended = u.appended.map (Size.defaulted c.engine.config c.engine.registry)) :
    (∃ f, c.follow u = ⟨[], .error f⟩ ∧ (c.withDefaults original).follow u' = ⟨[], .error f⟩) ∨
      ∃ next, c.follow u = ⟨Size.reported c.engine.config c.engine.registry u.appended, .ok next⟩ ∧
        (c.withDefaults original).follow u' = ⟨[], .ok (next.withOriginal original)⟩ := by
  have hrefs : u'.given.queue.map Value.step ++ u'.appended =
      (u.given.queue.map Value.step ++ u.appended).map
        (Size.defaulted c.engine.config c.engine.registry) := by
    rw [happended, hgiven, List.map_append, Size.defaulted_steps]
    rfl
  have hfollow' : (c.withDefaults original).follow u' =
      Size.assembled c.engine.config c.engine.registry (u.axes c.engine.config.grammar)
        ((u.given.queue.map Value.step ++ u.appended).map
          (Size.defaulted c.engine.config c.engine.registry)) (.ok original) u.given.extras := by
    show Size.assembled c.engine.config c.engine.registry (u'.axes c.engine.config.grammar)
      (u'.given.queue.map Value.step ++ u'.appended) (.ok original) u'.given.extras = _
    rw [haxes, hrefs, hgiven]
    rfl
  rw [hfollow']
  unfold follow Size.assembled
  cases u.axes c.engine.config.grammar with
  | error f => exact .inl ⟨_, rfl, rfl⟩
  | ok axes =>
    right
    dsimp only
    rw [Size.reported_append, Size.reported_steps, Size.reported_defaulted, Size.map_stepFor_defaulted]
    exact ⟨_, rfl, rfl⟩

/-- A turn with defaults. -/
theorem turn_withDefaults (hd : c.Derives step given) (hb : c.Blind step given)
    (hlike : given.original.Resembles original) :
    (∃ l l' f f', c.turn step given = ⟨l, .error f⟩ ∧
      (c.withDefaults original).turn step (given.withOriginal original) = ⟨l', .error f'⟩ ∧
      Thins l [] l' ∧ f.SameClass f') ∨
    ∃ l l' u u' next, c.turn step given = ⟨l, .ok (u, next)⟩ ∧
      (c.withDefaults original).turn step (given.withOriginal original) =
        ⟨l', .ok (u', next.withOriginal original)⟩ ∧
      Thins l (Size.reported c.engine.config c.engine.registry u.appended) l' := by
  obtain ⟨hlog, hend⟩ := alike_performs hb hlike
  rcases hend.cases with ⟨f, f', hperforms, hperforms', hclass⟩ |
    ⟨answer, answer', hperforms, hperforms', v, hv, hanswer'⟩
  · exact .inl ⟨_, _, f, f', turn_of_error hperforms, turn_of_error hperforms', hlog, hclass⟩
  · let u : Turn := ⟨step, given, answer⟩
    let u' : Turn := ⟨step, given.withOriginal original, answer'⟩
    have hderives : u.Derives := hd answer hperforms
    have hextended : u'.Extends ∧ u'.axes c.engine.config.grammar = u.axes c.engine.config.grammar ∧
        u'.appended = u.appended.map (Size.defaulted c.engine.config c.engine.registry) :=
      extends_withDefaults hderives hv rfl hanswer'
    obtain ⟨hextends, haxes, happended⟩ := hextended
    have hturn : c.turn step given = _ := turn_of_ok (u := u) hperforms hderives.extends
    have hturn' : (c.withDefaults original).turn step (given.withOriginal original) = _ :=
      turn_of_ok (u := u') hperforms' hextends
    have hgiven : u'.given = u.given.withOriginal original := rfl
    rcases follow_withDefaults hgiven haxes happended with
      ⟨f, hfollow, hfollow'⟩ | ⟨next, hfollow, hfollow'⟩
    · refine .inl ⟨_, _, f, f, by rw [hturn, hfollow]; rfl, by rw [hturn', hfollow']; rfl, ?_, .refl f⟩
      rw [List.append_nil, List.append_nil]
      exact hlog
    · refine .inr ⟨_, _, u, u', next, by rw [hturn, hfollow]; rfl, by rw [hturn', hfollow']; rfl, ?_⟩
      exact hlog.append (.all _)

end Calculation

/-! ## Runs -/

/-- The warnings about the references that some steps have put into the queue. -/
def Engine.reportedBy (e : Engine) (visits : List Visit) : List LogEntry :=
  visits.flatMap fun a => Size.reported e.config e.registry a.enqueued

/-- Two runs that end in the same way, the second with another snapshot. -/
inductive Ending.Alike (original : Mapping) : Ending → Ending → Prop
  | emptied (s : SizeSpec) : Alike original (.emptied s) (.emptied (s.withOriginal original))
  | stopped (s : SizeSpec) : Alike original (.stopped s) (.stopped (s.withOriginal original))
  | failed {step step' : Step} {given given' : SizeSpec} {f f' : Failure} (h : f.SameClass f') :
    Alike original (.failed step given f) (.failed step' given' f')

namespace Calculation

variable {c : Calculation} {original : Mapping}

/-- The invariant of the two runs, carried by the snapshot that all sizes of a run share. -/
theorem history_withDefaults (hlike : c.original.Resembles original) (n : ℕ) (s : SizeSpec)
    (hs : s.original = c.original) (hd : ∀ a ∈ (c.history n s).visits, c.Derives a.step a.given)
    (hb : ∀ a ∈ (c.history n s).visits, c.Blind a.step a.given) :
    Thins (c.history n s).entries (c.engine.reportedBy (c.history n s).visits)
        ((c.withDefaults original).history n (s.withOriginal original)).entries ∧
      Ending.Alike original (c.history n s).ending
        ((c.withDefaults original).history n (s.withOriginal original)).ending := by
  induction n generalizing s with
  | zero =>
    cases hq : s.queue with
    | nil =>
      rw [history_nil c 0 hq, history_nil _ 0 (s := s.withOriginal original) hq]
      exact ⟨.nil, .emptied s⟩
    | cons step rest =>
      have hne : s.queue ≠ [] := by simp [hq]
      rw [history_zero c hne, history_zero _ (s := s.withOriginal original) hne]
      exact ⟨.nil, .stopped s⟩
  | succ n ih =>
    cases hq : s.queue with
    | nil =>
      rw [history_nil c (n + 1) hq, history_nil _ (n + 1) (s := s.withOriginal original) hq]
      exact ⟨.nil, .emptied s⟩
    | cons step rest =>
      have hq' : (s.withOriginal original).queue = step :: rest := hq
      have hgiven : (s.withQueue rest).original.Resembles original := hs ▸ hlike
      obtain ⟨a, ha, hstep, hfirst⟩ := c.exists_first_visit n hq
      have hderives : c.Derives step (s.withQueue rest) := hstep ▸ hfirst ▸ hd a ha
      have hblind : c.Blind step (s.withQueue rest) := hstep ▸ hfirst ▸ hb a ha
      rcases turn_withDefaults hderives hblind hgiven with
        ⟨l, l', f, f', hturn, hturn', hthins, hclass⟩ | ⟨l, l', u, u', next, hturn, hturn', hthins⟩
      · rw [history_failed c n hq hturn, history_failed _ n hq' hturn']
        exact ⟨hthins, .failed hclass⟩
      · obtain ⟨hlater, hending⟩ := ih next (turn_original hturn) (forall_visits_turn hq hturn hd).2
          (forall_visits_turn hq hturn hb).2
        rw [history_turn c n hq hturn, history_turn _ n hq' hturn', History.visits_after]
        exact ⟨hthins.append hlater, hending⟩

theorem limitReached_alike (R : SizeSpec → SizeSpec → Prop) (e : Engine) {o o' : Mapping}
    (h : o.Resembles o') (pending : Nat) :
    Alike R (e.limitReached o pending) (e.limitReached o' pending) := by
  cases hdescribable : Engine.describable o with
  | true =>
    rw [Engine.limitReached_describable e pending hdescribable,
      Engine.limitReached_describable e pending (h.describable.trans hdescribable)]
    exact ⟨.keep (.error _ _) .nil, .failed rfl⟩
  | false =>
    rw [Engine.limitReached_undescribable e pending hdescribable,
      Engine.limitReached_undescribable e pending (h.describable.trans hdescribable)]
    exact ⟨.nil, .failed rfl⟩

/-- What two such runs come to. -/
theorem outcome_withDefaults (hlike : c.original.Resembles original) {h h' : History}
    {gone : List LogEntry} (hlog : Thins h.entries gone h'.entries)
    (hending : Ending.Alike original h.ending h'.ending) :
    Thins (h.outcome c).entries gone (h'.outcome (c.withDefaults original)).entries ∧
      EndAlike (fun s s' => s' = s.withOriginal original) (h.outcome c).result
        (h'.outcome (c.withDefaults original)).result := by
  obtain ⟨turns, entries, ending⟩ := h
  obtain ⟨turns', entries', ending'⟩ := h'
  cases hending with
  | emptied s => exact ⟨hlog, .returned rfl⟩
  | stopped s =>
    obtain ⟨hlimit, hend⟩ := limitReached_alike (fun s s' => s' = s.withOriginal original) c.engine hlike
      s.queue.length
    exact ⟨List.append_nil gone ▸ hlog.append hlimit, hend⟩
  | failed hclass => exact ⟨hlog, .failed hclass⟩

end Calculation

/-! ## Calculations -/

/-- Sizes with the same axes, queue and extras. -/
def SizeSpec.SameButSnapshot (s t : SizeSpec) : Prop :=
  t.width = s.width ∧ t.height = s.height ∧ t.queue = s.queue ∧ t.extras = s.extras

namespace Engine

/-- The steps that a calculation comes to. -/
def visits (e : Engine) (size : Value) (real : RealDimension) : List Visit :=
  match (e.normalize size).result with
  | .ok s => (e.historyOf real s).visits
  | .error _ => []

theorem visits_of_normalize {e : Engine} {size : Value} {s : SizeSpec} (real : RealDimension)
    (h : (e.normalize size).result = .ok s) : e.visits size real = (e.historyOf real s).visits := by
  unfold visits
  rw [h]

theorem visits_of_error {e : Engine} {size : Value} {f : Failure} (real : RealDimension)
    (h : (e.normalize size).result = .error f) : e.visits size real = [] := by
  unfold visits
  rw [h]

/-- The warnings about the references that a size starts with. -/
def initialWarnings (e : Engine) (size : Value) : List LogEntry :=
  if Size.axesReadable e.config size then
    Size.reported e.config e.registry (Size.initialReferences e.config size)
  else []

theorem initialWarnings_eq (e : Engine) (size : Value) :
    (e.normalize size).functionWarnings = e.initialWarnings size :=
  Size.normalize_functionWarnings e.config e.registry size

/-- The first half: which warnings about functions there are. -/
theorem functionWarnings_calculate {e : Engine} {size : Value} {real : RealDimension}
    (hd : ∀ a ∈ e.visits size real, (e.calculation real a.given).Derives a.step a.given) :
    (e.calculate size real).functionWarnings = e.initialWarnings size ++
      (e.visits size real).flatMap fun a => (e.calculation real a.given).warningsOf a := by
  rw [calculate_eq_outcome]
  cases hs : (e.normalize size).result with
  | error f =>
    rw [functionWarnings_of_error _ hs, visits_of_error real hs, initialWarnings_eq]
    exact (List.append_nil _).symm
  | ok s =>
    rw [visits_of_normalize real hs] at hd ⊢
    rw [functionWarnings_of_ok _ hs, initialWarnings_eq, Calculation.functionWarnings_outcome]
    exact congrArg (_ ++ ·) ((e.calculation real s).history_functionWarnings _ s hd)

/-- The second half: what the calculation comes to with defaults. -/
theorem calculate_withDefaults {e : Engine} {size : Value} {real : RealDimension}
    (hd : ∀ a ∈ e.visits size real, (e.calculation real a.given).Derives a.step a.given)
    (hb : ∀ a ∈ e.visits size real, (e.calculation real a.given).Blind a.step a.given)
    (hprintable : ∀ ref ∈ Size.initialReferences e.config size, Size.stepOf? e.registry ref = none →
      ref.printable = true) :
    let replaced := e.withDefaults.calculateWith (e.resolveAt e.nesting)
      (Size.withDefaults e.config e.registry size) real
    Thins (e.calculate size real).entries
        (e.initialWarnings size ++ e.reportedBy (e.visits size real)) replaced.entries ∧
      EndAlike SizeSpec.SameButSnapshot (e.calculate size real).result replaced.result := by
  intro replaced
  let c' : SizeSpec → Calculation := fun s => ⟨e.withDefaults, e.resolveAt e.nesting, real, s.original⟩
  have hreplaced : replaced = e.normalize (Size.withDefaults e.config e.registry size) >>= fun s =>
      ((c' s).history e.config.maxSteps.steps s).outcome (c' s) :=
    congrArg (e.normalize (Size.withDefaults e.config e.registry size) >>= ·)
      (funext fun s => Calculation.drain_eq_outcome (c' s) _ s)
  have hnormalized : Thins (e.normalize size).entries (e.initialWarnings size)
        (e.normalize (Size.withDefaults e.config e.registry size)).entries ∧
      EndAlike (fun s s' => s.original.Resembles s'.original ∧ s' = s.withOriginal s'.original)
        (e.normalize size).result (e.normalize (Size.withDefaults e.config e.registry size)).result :=
    Size.normalize_withDefaults hprintable
  obtain ⟨hlog, hend⟩ := hnormalized
  rw [calculate_eq_outcome, hreplaced]
  rcases hend.cases with ⟨f, f', hs, hs', hclass⟩ | ⟨s, s', hs, hs', hlike, hsame⟩
  · rw [bind_error _ hs, bind_error _ hs', visits_of_error real hs]
    exact ⟨(List.append_nil (e.initialWarnings size)).symm ▸ hlog, .failed hclass⟩
  · rw [visits_of_normalize real hs] at hd hb ⊢
    obtain ⟨hruns, hendings⟩ := Calculation.history_withDefaults (c := e.calculation real s) hlike
      e.config.maxSteps.steps s rfl hd hb
    obtain ⟨hlogs, hends⟩ := Calculation.outcome_withDefaults (c := e.calculation real s) hlike hruns
      hendings
    rw [bind_ok _ hs, bind_ok _ hs', hsame]
    refine ⟨hlog.append hlogs, hends.imp ?_⟩
    rintro t _ rfl
    exact ⟨rfl, rfl, rfl, rfl⟩

/-- A calculation warns about each reference that stands for no step once, however many steps run
after it: about those of the size, if both of its axes can be read, and about those that each step
appends.  If the axes of a size or of an answer cannot be read, then the calculation fails before it
has looked at the references.  Other warnings about functions come from custom functions that have
the engine resolve references of their own.  With the name of the default policy in the place of all
these references the calculation returns the same width, height, queue and extras, or fails with an
error of the same class, and exactly these warnings are missing, as long as custom functions do not
look at the snapshot and what is replaced can be printed.  The calculations that custom functions ask
for are not replaced. -/
theorem calculate_unresolved {e : Engine} {size : Value} {real : RealDimension}
    (hd : ∀ a ∈ e.visits size real, a.step.runsPolicy = false →
      (e.calculation real a.given).Derives a.step a.given) :
    (e.calculate size real).functionWarnings = e.initialWarnings size ++
      (e.visits size real).flatMap (fun a => (e.calculation real a.given).warningsOf a) ∧
    ((∀ a ∈ e.visits size real, a.step.runsPolicy = false →
        (e.calculation real a.given).Blind a.step a.given) →
      (∀ ref ∈ Size.initialReferences e.config size, Size.stepOf? e.registry ref = none →
        ref.printable = true) →
      let replaced := e.withDefaults.calculateWith (e.resolveAt e.nesting)
        (Size.withDefaults e.config e.registry size) real
      Thins (e.calculate size real).entries
        (e.initialWarnings size ++ e.reportedBy (e.visits size real)) replaced.entries ∧
      EndAlike SizeSpec.SameButSnapshot (e.calculate size real).result replaced.result) := by
  have hderives : ∀ a ∈ e.visits size real, (e.calculation real a.given).Derives a.step a.given := by
    intro a ha
    cases h : a.step.runsPolicy with
    | true => exact Calculation.derives_builtIn _ h a.given
    | false => exact hd a ha h
  refine ⟨functionWarnings_calculate hderives, fun hb hprintable => ?_⟩
  have hblind : ∀ a ∈ e.visits size real, (e.calculation real a.given).Blind a.step a.given := by
    intro a ha
    cases h : a.step.runsPolicy with
    | true => exact Calculation.blind_builtIn _ h a.given
    | false => exact hb a ha h
  exact calculate_withDefaults hderives hblind hprintable

/-- A size of a given width that has a custom function and a name that nobody knows. -/
def bogusSize (width : Value) : Value :=
  .map [(.str "function", .list [.callable asker, .str "bogus"]), (.str "width", width)]

/-- A width in more digits than are read. -/
def overlongZero : String := String.ofList (List.replicate 4301 '0')

theorem readAxes_overlongZero :
    Size.readAxes askingEngine.config.grammar (.str overlongZero) .nothing =
      .error (.numeralTooLong 4301) := by
  have hread : Dimension.read askingEngine.config.grammar (.str overlongZero) =
      .error (.numeralTooLong 4301) := Dimension.read_zeros (by decide)
  unfold Size.readAxes
  rw [hread]
  rfl

theorem normalize_overlongZero : (askingEngine.normalize (bogusSize (.str overlongZero))).result =
    .error (.fault (.numeralTooLong 4301)) := by
  have hnormalize : ∀ width : String, ∃ refs original extras,
      askingEngine.normalize (bogusSize (.str width)) =
        Size.assembled askingEngine.config askingEngine.registry
          (Size.readAxes askingEngine.config.grammar (.str width) .nothing) refs original extras :=
    fun width => ⟨_, _, _, Size.normalizeCanonical_eq_assembled _ _ _⟩
  obtain ⟨refs, original, extras, heq⟩ := hnormalize overlongZero
  rw [heq, readAxes_overlongZero]
  rfl

theorem initialWarnings_overlongZero :
    askingEngine.initialWarnings (bogusSize (.str overlongZero)) = [] := by
  have haxes : ∀ width : String, Size.axesReadable askingEngine.config (bogusSize (.str width)) =
      (Size.readAxes askingEngine.config.grammar (.str width) .nothing).isOk := fun width => rfl
  unfold initialWarnings
  rw [haxes, readAxes_overlongZero]
  rfl

/-- The name of the size and the one that the function asks for are warned about once each, and
neither is if the width cannot be read. -/
theorem calculate_unresolved_asking :
    (askingEngine.calculate (bogusSize (.dim .pixel (.int 10))) fiveByFive).functionWarnings =
      [.warning (Size.unknownName askingEngine.config askingEngine.registry "bogus"),
        .warning (Size.unknownName askingEngine.config askingEngine.registry "nope")] ∧
    EndAlike SizeSpec.SameButSnapshot
      (askingEngine.calculate (bogusSize (.dim .pixel (.int 10))) fiveByFive).result
      (askingEngine.withDefaults.calculateWith (askingEngine.resolveAt askingEngine.nesting)
        (Size.withDefaults askingEngine.config askingEngine.registry (bogusSize (.dim .pixel (.int 10))))
        fiveByFive).result ∧
    (askingEngine.calculate (bogusSize (.str overlongZero)) fiveByFive).functionWarnings = [] := by
  have hvisits : (askingEngine.visits (bogusSize (.dim .pixel (.int 10))) fiveByFive).map
      Visit.step = [.ofCallable asker, .ofPolicy .check, .ofPolicy .check, .ofPolicy .check] := rfl
  have hasker : ∀ a ∈ askingEngine.visits (bogusSize (.dim .pixel (.int 10))) fiveByFive,
      a.step.runsPolicy = false → a.step = .ofCallable asker := by
    intro a ha hcustom
    have hstep := List.mem_map_of_mem (f := Visit.step) ha
    rw [hvisits] at hstep
    simp only [List.mem_cons, List.not_mem_nil, or_false] at hstep
    rcases hstep with hstep | hstep | hstep | hstep
    · exact hstep
    all_goals
      rw [hstep] at hcustom
      cases hcustom
  have hderives : ∀ a ∈ askingEngine.visits (bogusSize (.dim .pixel (.int 10))) fiveByFive,
      a.step.runsPolicy = false →
      (askingEngine.calculation fiveByFive a.given).Derives a.step a.given := by
    intro a ha hcustom answer hanswer
    rw [hasker a ha hcustom] at hanswer
    obtain rfl : a.given.andThen [.str "check", .str "nope"] = answer := Except.ok.inj hanswer
    exact Turn.derives_of_andThen a.given.width a.given.height _ rfl
  have hblind : ∀ a ∈ askingEngine.visits (bogusSize (.dim .pixel (.int 10))) fiveByFive,
      a.step.runsPolicy = false →
      (askingEngine.calculation fiveByFive a.given).Blind a.step a.given := by
    intro a ha hcustom
    have hrecipe : askingEngine.functions asker =
        (Recipe.andThen [.str "check", .str "nope"]).function asker := rfl
    rw [hasker a ha hcustom]
    exact Calculation.blind_recipe rfl hrecipe (fun _ => Recipe.noConfusion) a.given
  have hprintable : ∀ ref ∈ Size.initialReferences askingEngine.config
      (bogusSize (.dim .pixel (.int 10))), ref.printable = true := by
    have hrefs : Size.initialReferences askingEngine.config (bogusSize (.dim .pixel (.int 10))) =
      [.callable asker, .str "bogus"] := rfl
    rw [hrefs]
    decide
  obtain ⟨hwarnings, hreplaced⟩ := calculate_unresolved hderives
  have hnone := visits_of_error fiveByFive normalize_overlongZero
  have hnothing : (askingEngine.calculate (bogusSize (.str overlongZero)) fiveByFive).functionWarnings =
      askingEngine.initialWarnings (bogusSize (.str overlongZero)) ++ _ :=
    (calculate_unresolved (by rw [hnone]; exact nofun)).1
  rw [hnone, initialWarnings_overlongZero] at hnothing
  exact ⟨hwarnings, (hreplaced hblind fun ref href _ => hprintable ref href).2, hnothing⟩

end Engine

end ImageSizing
