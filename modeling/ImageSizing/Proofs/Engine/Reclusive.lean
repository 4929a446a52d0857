import ImageSizing.Proofs.Engine.Order

/-!
# Runs whatever names are known

The known names matter where a reference is a custom name, and nowhere else.  References that are
settled (`Value.IsSettled`) give a size the same normal form in all registries
(`Size.normalize_of_settled`), and a normalized size holds steps only.

So a size that is normalized already runs the steps of its queue whatever names the engine knows, as
long as these steps change axes only (`executed_of_resized`).  If they also ask for nothing that
depends on names (`Engine.IsReclusive`), then the whole history is the same
(`history_of_reclusive`).
-/

namespace ImageSizing

/-! ## References -/

/-- A reference that stands for the same step whatever custom names are known: the name of a policy,
a step, or a custom function itself. -/
def Value.IsSettled (ref : Value) : Prop :=
  (∃ p : Policy, ref = .str p.name) ∨ (∃ s, ref = .step s) ∨ ∃ c, ref = .callable c

namespace Size

variable {cfg : EngineConfig} {refs : List Value} {raw : Value}

theorem resolve_of_settled {ref : Value} (h : ref.IsSettled) (r r' : Registry) :
    resolve cfg r' ref = resolve cfg r ref := by
  unfold resolve
  rcases h with ⟨p, rfl⟩ | ⟨s, rfl⟩ | ⟨c, rfl⟩
  · rw [stepOf?_name, stepOf?_name]
  · rfl
  · rfl

theorem resolveAll_of_settled (h : ∀ ref ∈ refs, ref.IsSettled) (r r' : Registry) :
    resolveAll cfg r' refs = resolveAll cfg r refs := by
  induction refs with
  | nil => rfl
  | cons ref refs ih =>
    rw [List.forall_mem_cons] at h
    unfold resolveAll
    rw [resolve_of_settled h.1 r r', ih h.2]

theorem isSettled_steps (steps : List Step) : ∀ ref ∈ steps.map Value.step, ref.IsSettled := by
  intro ref href
  obtain ⟨s, -, rfl⟩ := List.mem_map.1 href
  exact .inr (.inl ⟨s, rfl⟩)

theorem normalizeSpec_of_settled (h : ∀ ref ∈ refs, ref.IsSettled) (r r' : Registry)
    (width height : Value) (original extras : Mapping) :
    normalizeSpec cfg r' width height refs original extras =
      normalizeSpec cfg r width height refs original extras := by
  unfold normalizeSpec
  rw [resolveAll_of_settled h r r']

/-- Settled references make the normal form of a size one and the same, log and failures included. -/
theorem normalize_of_settled (h : ∀ ref ∈ initialReferences cfg raw, ref.IsSettled)
    (r r' : Registry) : normalize cfg r' raw = normalize cfg r raw := by
  by_cases hspec : ∃ w h fs o x, raw = .spec w h fs o x
  · obtain ⟨w, h', fs, o, x, rfl⟩ := hspec
    exact normalizeSpec_of_settled h r r' w h' o x
  · have hraw : ∀ w h fs o x, raw ≠ .spec w h fs o x := by
      intro w h fs o x heq
      exact hspec ⟨w, h, fs, o, x, heq⟩
    rw [normalize_of_not_spec hraw, normalize_of_not_spec hraw]
    cases hm : (canonical cfg raw).result with
    | error f => rw [Logged.bind_error _ hm, Logged.bind_error _ hm]
    | ok m =>
      have hrefs : ∀ ref ∈ references cfg (m.get "function"), ref.IsSettled := by
        have hinitial : initialReferences cfg raw = references cfg (m.get "function") := by
          unfold initialReferences
          split
          · exact absurd rfl (hraw _ _ _ _ _)
          · rw [hm]
        rwa [← hinitial]
      have hsame : normalizeCanonical cfg r' m = normalizeCanonical cfg r m := by
        unfold normalizeCanonical
        dsimp only
        rw [resolveAll_of_settled hrefs r r']
      rw [Logged.bind_ok _ hm, Logged.bind_ok _ hm]
      show (⟨_ ++ (normalizeCanonical cfg r' m).entries, (normalizeCanonical cfg r' m).result⟩ :
        Logged SizeSpec) = _
      rw [hsame]
      rfl

end Size

/-! ## Runs -/

/-- All custom steps that returned in a run answered nothing or other axes. -/
def History.ResizesOnly (h : History) : Prop :=
  ∀ u ∈ h.turns, u.step.runsPolicy = false → u.given.ResizedBy u.answer

namespace Calculation

variable {c : Calculation} {n : Nat} {s : SizeSpec}

/-- Steps that change axes only leave what waits behind them as it was. -/
theorem Turns.queue_of_resized {us : List Turn} {l : List LogEntry} {t : SizeSpec}
    (hts : c.Turns s us l t)
    (h : ∀ u ∈ us, u.step.runsPolicy = false → u.given.ResizedBy u.answer) :
    s.queue = us.map Turn.step ++ t.queue := by
  have hresized := hts.of_custom (P := fun u => u.given.ResizedBy u.answer) resized_of_builtIn h
  have hall := hts.queue_append fun u hu => (Turn.derives_of_resized (hresized u hu)).1
  have hnone : us.flatMap (fun u => u.appended.map c.stepFor) = [] := by
    rw [List.flatMap_eq_nil_iff]
    intro u hu
    rw [(Turn.derives_of_resized (hresized u hu)).2]
    rfl
  rw [hnone, List.append_nil] at hall
  exact hall

/-- So the executed steps are those of the queue: from its front, up to the limit or to a step that
fails. -/
theorem executed_of_resized (h : (c.history n s).ResizesOnly) :
    (c.history n s).executed <+: s.queue ∧
      ((∀ step given f, (c.history n s).ending ≠ .failed step given f) →
        (c.history n s).executed = s.queue.take n) := by
  unfold History.ResizesOnly at h
  rcases c.history_cases n s with ⟨us, l, t, hts, hlen, ht, he⟩ | ⟨us, l, t, hts, hlen, ht, he⟩ |
    ⟨us, l, t, step, rest, f, hts, hlen, ht, _, he⟩
  · rw [he] at h ⊢
    have hq := hts.queue_of_resized h
    rw [ht, List.append_nil] at hq
    have hexecuted : (⟨us, l, .emptied t⟩ : History).executed = s.queue := by
      rw [hq]
      exact List.append_nil _
    rw [hexecuted]
    refine ⟨List.prefix_refl _, fun _ => ?_⟩
    rw [List.take_of_length_le]
    rw [hq, List.length_map]
    exact hlen
  · rw [he] at h ⊢
    have hq := hts.queue_of_resized h
    have hexecuted : (⟨us, l, .stopped t⟩ : History).executed = us.map Turn.step :=
      List.append_nil _
    rw [hexecuted, hq]
    refine ⟨List.prefix_append _ _, fun _ => ?_⟩
    rw [List.take_left' (by simpa using hlen)]
  · rw [he] at h ⊢
    have hq := hts.queue_of_resized h
    rw [ht] at hq
    refine ⟨?_, fun hnot => absurd rfl (hnot step (t.withQueue rest) f)⟩
    rw [hq]
    show us.map Turn.step ++ [step] <+: us.map Turn.step ++ step :: rest
    exact ⟨rest, by simp⟩

end Calculation

/-- A script that asks for nothing that depends on the known names, all of whose answers have a
property. -/
def Script.Reclusive (P : Value → Prop) : Script → Prop
  | .done answer => P answer
  | .fail _ => True
  | .elaborate _ next => ∀ m, (next m).Reclusive P
  | .apply _ _ _ next => ∀ s, (next s).Reclusive P
  | .normalize _ _ => False
  | .calculate _ _ _ => False
  | .toPixels _ _ _ => False

namespace Engine

variable {e : Engine} {script : Script} {P : Value → Prop}

/-- Such a script runs in the same way whatever names are known. -/
theorem runScript_of_reclusive (h : script.Reclusive P) (r : Registry) (resolver resolver' : Resolver) :
    { e with registry := r }.runScript resolver' script = e.runScript resolver script := by
  induction script with
  | done answer => rfl
  | fail fault => rfl
  | elaborate size next ih => exact congrArg (e.elaborate size >>= ·) (funext fun m => ih m (h m))
  | apply policy size real next ih =>
    exact congrArg (policy.apply size real >>= ·) (funext fun s => ih s (h s))
  | normalize size next => exact h.elim
  | calculate size real next => exact h.elim
  | toPixels size real next => exact h.elim

theorem answer_of_reclusive (h : script.Reclusive P) {resolver : Resolver} {answer : Value}
    (hanswer : (e.runScript resolver script).result = .ok answer) : P answer := by
  induction script with
  | done answer' =>
    cases hanswer
    exact h
  | fail fault => cases hanswer
  | elaborate size next ih =>
    obtain ⟨m, -, hnext⟩ := Logged.bind_result_eq_ok_iff.1 hanswer
    exact ih m (h m) hnext
  | apply policy size real next ih =>
    obtain ⟨s, -, hnext⟩ := Logged.bind_result_eq_ok_iff.1 hanswer
    exact ih s (h s) hnext
  | normalize size next => exact h.elim
  | calculate size real next => exact h.elim
  | toPixels size real next => exact h.elim

/-- A step that changes axes only, whatever it is given, and asks for nothing that depends on the
known names. -/
def IsReclusive (e : Engine) (real : RealDimension) (step : Step) : Prop :=
  ∀ c, step.action = .custom c → ∀ given, (e.functions c given real).Reclusive given.ResizedBy

variable {real : RealDimension} {step : Step} {given : SizeSpec}

theorem perform_of_reclusive (h : e.IsReclusive real step) (r : Registry) (resolver resolver' : Resolver) :
    { e with registry := r }.perform resolver' step given real = e.perform resolver step given real := by
  unfold perform
  cases haction : step.action with
  | builtIn p => rfl
  | custom c => exact runScript_of_reclusive (h c haction given) r resolver resolver'

theorem resizedBy_of_reclusive (h : e.IsReclusive real step) {resolver : Resolver} {answer : Value}
    (hanswer : (e.perform resolver step given real).result = .ok answer) : given.ResizedBy answer := by
  cases haction : step.action with
  | builtIn p => exact Calculation.resizedBy_of_policy haction hanswer
  | custom c =>
    unfold perform at hanswer
    rw [haction] at hanswer
    exact answer_of_reclusive (h c haction given) hanswer

/-- An answer with other axes is normalized alike whatever names are known. -/
theorem renormalize_of_resized {answer : Value} (h : given.ResizedBy answer) (original : Mapping)
    (r : Registry) :
    { e with registry := r }.renormalize original (answerOr answer given) =
      e.renormalize original (answerOr answer given) := by
  unfold answerOr
  rcases h with hfalsy | ⟨width, height, rfl⟩
  · rw [hfalsy, if_neg Bool.false_ne_true]
    unfold renormalize
    rw [Size.normalize_toValue, Size.normalize_toValue]
  · have htruthy : (Value.spec width height (given.queue.map Value.step) given.original
        given.extras).isTruthy = true := rfl
    rw [if_pos htruthy]
    exact Size.normalizeSpec_of_settled (Size.isSettled_steps given.queue) _ _ _ _ _ _

end Engine

namespace Calculation

variable {c : Calculation}

/-- The calculation in an engine that knows other names. -/
def knowing (c : Calculation) (r : Registry) (resolver : Engine.Resolver) : Calculation :=
  { c with engine := { c.engine with registry := r }, resolver := resolver }

/-- A turn of such a step is the same whatever names are known. -/
theorem turn_of_reclusive {step : Step} (h : c.engine.IsReclusive c.real step) (r : Registry)
    (resolver : Engine.Resolver) (given : SizeSpec) :
    (c.knowing r resolver).turn step given = c.turn step given := by
  have hperform : (c.knowing r resolver).engine.perform resolver step given c.real =
      c.engine.perform c.resolver step given c.real :=
    Engine.perform_of_reclusive h r c.resolver resolver
  show (c.knowing r resolver).engine.perform resolver step given c.real >>= _ =
    c.engine.perform c.resolver step given c.real >>= _
  rw [hperform]
  cases hanswer : (c.engine.perform c.resolver step given c.real).result with
  | error f => rw [Logged.bind_error _ hanswer, Logged.bind_error _ hanswer]
  | ok answer =>
    have hsame : (c.knowing r resolver).engine.renormalize c.original (Engine.answerOr answer given) =
        c.engine.renormalize c.original (Engine.answerOr answer given) :=
      Engine.renormalize_of_resized (Engine.resizedBy_of_reclusive h hanswer) c.original r
    have horiginal : (c.knowing r resolver).original = c.original := rfl
    rw [Logged.bind_ok _ hanswer, Logged.bind_ok _ hanswer, horiginal, hsame]

/-- It leaves the queue as it is. -/
theorem queue_of_reclusive {step : Step} {given next : SizeSpec} {u : Turn} {l : List LogEntry}
    (h : c.engine.IsReclusive c.real step) (hturn : c.turn step given = ⟨l, .ok (u, next)⟩) :
    next.queue = given.queue := by
  obtain ⟨hderives, hnone⟩ := Turn.derives_of_resized
    (Engine.resizedBy_of_reclusive h (turn_answer hturn))
  obtain ⟨hqueue, -⟩ := turn_derived hturn hderives
  rw [hqueue, hnone, List.map_nil, List.append_nil]

/-- A run of such steps is the same whatever names are known. -/
theorem history_of_reclusive {s : SizeSpec} (h : ∀ step ∈ s.queue, c.engine.IsReclusive c.real step)
    (r : Registry) (resolver : Engine.Resolver) (n : Nat) :
    (c.knowing r resolver).history n s = c.history n s := by
  induction n generalizing s with
  | zero =>
    by_cases hq : s.queue = []
    · rw [history_nil _ 0 hq, history_nil _ 0 hq]
    · rw [history_zero _ hq, history_zero _ hq]
  | succ n ih =>
    cases hq : s.queue with
    | nil => rw [history_nil _ _ hq, history_nil _ _ hq]
    | cons step rest =>
      rw [hq, List.forall_mem_cons] at h
      have hsame := turn_of_reclusive h.1 r resolver (s.withQueue rest)
      cases hturn : c.turn step (s.withQueue rest) with
      | mk l result =>
        cases result with
        | error f => rw [history_failed _ n hq hturn, history_failed _ n hq (hsame.trans hturn)]
        | ok p =>
          obtain ⟨u, next⟩ := p
          have hnext : next.queue = rest := queue_of_reclusive h.1 hturn
          have hlater : ∀ step ∈ next.queue, c.engine.IsReclusive c.real step := by
            rw [hnext]
            exact h.2
          rw [history_turn _ n hq hturn, history_turn _ n hq (hsame.trans hturn), ih hlater]

end Calculation

end ImageSizing
