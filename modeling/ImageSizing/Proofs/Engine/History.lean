import ImageSizing.Engine.Basic
import ImageSizing.Proofs.Size.Normal

/-!
# Histories of calculations

A calculation executes one step after the other.  `Turns` says what a number of turns in a
row come to, whatever the step limit; it knows no limit at all.  `history` is the record of
a run with a number of steps to go: the turns it took, and whether it emptied the queue, was
stopped with steps left in the queue, or failed in a turn.  The run itself is the outcome of
its history (`calculate_eq_outcome`), and

    c.Turns s us l t → c.history (us.length + n) s = (c.history n t).after us l   (Turns.history_add)
-/

namespace ImageSizing

/-- What stays the same while the queue of a size is run. -/
structure Calculation where
  engine : Engine
  resolver : Engine.Resolver
  real : RealDimension
  original : Mapping

/-- One executed step, the size it was given, and its answer. -/
structure Turn where
  step : Step
  given : SizeSpec
  answer : Value

/-- How a run ended. -/
inductive Ending where
  | emptied (size : SizeSpec)
  | stopped (size : SizeSpec)
  | failed (step : Step) (given : SizeSpec) (failure : Failure)

/-- The turns of a run, its log, and how it ended. -/
structure History where
  turns : List Turn
  entries : List LogEntry
  ending : Ending

namespace History

/-- The history with some turns and their log before it. -/
def after (h : History) (us : List Turn) (l : List LogEntry) : History :=
  ⟨us ++ h.turns, l ++ h.entries, h.ending⟩

/-- The steps that were executed, the one that failed included. -/
def executed (h : History) : List Step :=
  h.turns.map Turn.step ++
    match h.ending with
    | .failed step _ _ => [step]
    | _ => []

/-- The size at the end of a run, or the one that the failing step was given. -/
def lastSize (h : History) : SizeSpec :=
  match h.ending with
  | .emptied size => size
  | .stopped size => size
  | .failed _ given _ => given

/-- The sizes of a run: what each step was given, the failing one included, and what is left at
the end. -/
def sizes (h : History) : List SizeSpec := h.turns.map Turn.given ++ [h.lastSize]

/-- What a run with this history comes to. -/
def outcome (c : Calculation) (h : History) : Logged SizeSpec :=
  match h.ending with
  | .emptied size => ⟨h.entries, .ok size⟩
  | .stopped size =>
    ⟨h.entries ++ (c.engine.limitReached c.original size.queue.length).entries,
      (c.engine.limitReached c.original size.queue.length).result⟩
  | .failed _ _ failure => ⟨h.entries, .error failure⟩

end History

namespace Calculation

/-- Executes a step and normalizes what it leads to. -/
def turn (c : Calculation) (step : Step) (given : SizeSpec) : Logged (Turn × SizeSpec) := do
  let answer ← c.engine.perform c.resolver step given c.real
  let next ← c.engine.renormalize c.original (Engine.answerOr answer given)
  return (⟨step, given, answer⟩, next)

/-- The history of a run with a number of steps to go. -/
def history (c : Calculation) : Nat → SizeSpec → History
  | remaining, size =>
    match size.queue with
    | [] => ⟨[], [], .emptied size⟩
    | step :: rest =>
      match remaining with
      | 0 => ⟨[], [], .stopped size⟩
      | left + 1 =>
        let done := c.turn step (size.withQueue rest)
        match done.result with
        | .error f => ⟨[], done.entries, .failed step (size.withQueue rest) f⟩
        | .ok (u, next) => (c.history left next).after [u] done.entries

/-- Some turns in a row, their log, and the size that they lead to; there is no limit. -/
inductive Turns (c : Calculation) : SizeSpec → List Turn → List LogEntry → SizeSpec → Prop
  | nil (s : SizeSpec) : Turns c s [] [] s
  | cons {s next t : SizeSpec} {step : Step} {rest : List Step} {u : Turn} {us : List Turn}
      {l l' : List LogEntry} (front : s.queue = step :: rest)
      (done : c.turn step (s.withQueue rest) = ⟨l, .ok (u, next)⟩)
      (later : Turns c next us l' t) : Turns c s (u :: us) (l ++ l') t

/-! ## Turns -/

/-- What a turn is made of. -/
theorem turn_eq_ok {c : Calculation} {step : Step} {given next : SizeSpec} {u : Turn}
    {l : List LogEntry} (h : c.turn step given = ⟨l, .ok (u, next)⟩) :
    u.step = step ∧ u.given = given ∧
      (c.engine.renormalize c.original (Engine.answerOr u.answer given)).result = .ok next := by
  have hr : (c.turn step given).result = .ok (u, next) := by rw [h]
  unfold turn at hr
  obtain ⟨answer, _, hr⟩ := Logged.bind_result_eq_ok_iff.1 hr
  obtain ⟨next', hn, hr⟩ := Logged.bind_result_eq_ok_iff.1 hr
  cases hr
  exact ⟨rfl, rfl, hn⟩

/-! ## Histories and runs -/

theorem history_nil (c : Calculation) (n : Nat) {s : SizeSpec} (h : s.queue = []) :
    c.history n s = ⟨[], [], .emptied s⟩ := by
  unfold history
  rw [h]

theorem history_zero (c : Calculation) {s : SizeSpec} (h : s.queue ≠ []) :
    c.history 0 s = ⟨[], [], .stopped s⟩ := by
  unfold history
  cases hq : s.queue with
  | nil => exact absurd hq h
  | cons step rest => rfl

theorem history_turn (c : Calculation) (n : Nat) {s next : SizeSpec} {step : Step}
    {rest : List Step} {u : Turn} {l : List LogEntry} (front : s.queue = step :: rest)
    (done : c.turn step (s.withQueue rest) = ⟨l, .ok (u, next)⟩) :
    c.history (n + 1) s = (c.history n next).after [u] l := by
  conv => lhs; unfold history
  rw [front]
  simp only [done]

theorem history_failed (c : Calculation) (n : Nat) {s : SizeSpec} {step : Step}
    {rest : List Step} {f : Failure} {l : List LogEntry} (front : s.queue = step :: rest)
    (failed : c.turn step (s.withQueue rest) = ⟨l, .error f⟩) :
    c.history (n + 1) s = ⟨[], l, .failed step (s.withQueue rest) f⟩ := by
  conv => lhs; unfold history
  rw [front]
  simp only [failed]

end Calculation

namespace Engine

variable {e : Engine} {res : Resolver} {real : RealDimension} {original : Mapping} {s : SizeSpec}
  {step : Step} {rest : List Step}

/-! ## How a run goes on -/

theorem drain_nil (h : s.queue = []) (n : Nat) : e.drain res real original n s = pure s := by
  unfold drain
  rw [h]

theorem drain_zero (front : s.queue = step :: rest) :
    e.drain res real original 0 s = e.limitReached original s.queue.length := by
  unfold drain
  rw [front]

theorem drain_cons (front : s.queue = step :: rest) (n : Nat) :
    e.drain res real original (n + 1) s =
      (e.perform res step (s.withQueue rest) real >>= fun answer =>
        e.renormalize original (answerOr answer (s.withQueue rest)) >>= fun next =>
          e.drain res real original n next) := by
  conv => lhs; unfold drain
  rw [front]

end Engine

namespace Calculation

theorem outcome_after (c : Calculation) (h : History) (us : List Turn) (l : List LogEntry) :
    (h.after us l).outcome c = ⟨l ++ (h.outcome c).entries, (h.outcome c).result⟩ := by
  unfold History.outcome History.after
  cases h.ending <;> simp

/-- A run with a step to go is its first turn and the run from there on. -/
theorem drain_turn (c : Calculation) {s : SizeSpec} {step : Step} {rest : List Step}
    (front : s.queue = step :: rest) (n : Nat) :
    c.engine.drain c.resolver c.real c.original (n + 1) s =
      (c.turn step (s.withQueue rest) >>= fun p =>
        c.engine.drain c.resolver c.real c.original n p.2) := by
  rw [Engine.drain_cons front]
  simp only [turn, Logged.bind_assoc, Logged.pure_bind]

/-- A run is the outcome of its history. -/
theorem drain_eq_outcome (c : Calculation) (n : Nat) (s : SizeSpec) :
    c.engine.drain c.resolver c.real c.original n s = (c.history n s).outcome c := by
  induction n generalizing s with
  | zero =>
    cases hq : s.queue with
    | nil =>
      rw [history_nil c 0 hq, Engine.drain_nil hq]
      rfl
    | cons step rest =>
      rw [history_zero c (by simp [hq]), Engine.drain_zero hq]
      rfl
  | succ n ih =>
    cases hq : s.queue with
    | nil =>
      rw [history_nil c (n + 1) hq, Engine.drain_nil hq]
      rfl
    | cons step rest =>
      rw [drain_turn c hq]
      cases hd : c.turn step (s.withQueue rest) with
      | mk l r =>
        cases r with
        | error f =>
          rw [history_failed c n hq hd]
          rfl
        | ok p =>
          rw [history_turn c n hq hd, outcome_after, ← ih]
          rfl

/-! ## Turns without a limit -/

/-- Turns that were possible are the beginning of every history that has room for them. -/
theorem Turns.history_add {c : Calculation} {s t : SizeSpec} {us : List Turn} {l : List LogEntry}
    (h : c.Turns s us l t) (n : Nat) : c.history (us.length + n) s = (c.history n t).after us l := by
  induction h with
  | nil s => simp [History.after]
  | @cons s next t step rest u us l l' front done later ih =>
    have hlen : (u :: us).length + n = (us.length + n) + 1 := by
      rw [List.length_cons]
      omega
    rw [hlen, history_turn c _ front done, ih]
    simp [History.after]

/-- The three ways in which a run may end: the turns empty the queue within the limit, they
use the limit up and leave steps in the queue, or one of them fails before that. -/
theorem history_cases (c : Calculation) (n : Nat) (s : SizeSpec) :
    (∃ us l t, c.Turns s us l t ∧ us.length ≤ n ∧ t.queue = [] ∧
      c.history n s = ⟨us, l, .emptied t⟩) ∨
    (∃ us l t, c.Turns s us l t ∧ us.length = n ∧ t.queue ≠ [] ∧
      c.history n s = ⟨us, l, .stopped t⟩) ∨
    (∃ us l t step rest f, c.Turns s us l t ∧ us.length < n ∧ t.queue = step :: rest ∧
      (c.turn step (t.withQueue rest)).result = .error f ∧
      c.history n s = ⟨us, l ++ (c.turn step (t.withQueue rest)).entries,
        .failed step (t.withQueue rest) f⟩) := by
  induction n generalizing s with
  | zero =>
    by_cases hq : s.queue = []
    · exact .inl ⟨[], [], s, .nil s, Nat.le_refl 0, hq, history_nil c 0 hq⟩
    · exact .inr (.inl ⟨[], [], s, .nil s, rfl, hq, history_zero c hq⟩)
  | succ n ih =>
    cases hq : s.queue with
    | nil => exact .inl ⟨[], [], s, .nil s, Nat.zero_le _, hq, history_nil c _ hq⟩
    | cons step rest =>
      cases hd : c.turn step (s.withQueue rest) with
      | mk l r =>
        cases r with
        | error f =>
          refine .inr (.inr ⟨[], [], s, step, rest, f, .nil s, Nat.succ_pos n, hq, ?_, ?_⟩)
          · rw [hd]
          · rw [hd]
            exact history_failed c n hq hd
        | ok p =>
          obtain ⟨u, next⟩ := p
          have hturn := history_turn c n hq hd
          rcases ih next with ⟨us, l', t, hts, hlen, ht, he⟩ | ⟨us, l', t, hts, hlen, ht, he⟩ |
            ⟨us, l', t, step', rest', f, hts, hlen, ht, hf, he⟩
          · refine .inl ⟨u :: us, _, t, .cons hq hd hts, by simpa using hlen, ht, ?_⟩
            rw [hturn, he]
            rfl
          · refine .inr (.inl ⟨u :: us, _, t, .cons hq hd hts, by simpa using hlen, ht, ?_⟩)
            rw [hturn, he]
            rfl
          · refine .inr (.inr ⟨u :: us, _, t, step', rest', f, .cons hq hd hts,
              by simpa using hlen, ht, hf, ?_⟩)
            rw [hturn, he]
            simp [History.after]

/-- The turns of a history were possible one after the other. -/
theorem turns_of_history (c : Calculation) (n : Nat) (s : SizeSpec) :
    ∃ l t, c.Turns s (c.history n s).turns l t := by
  rcases history_cases c n s with ⟨us, l, t, hts, _, _, he⟩ | ⟨us, l, t, hts, _, _, he⟩ |
    ⟨us, l, t, step, rest, f, hts, _, _, _, he⟩
  · exact ⟨l, t, by rwa [he]⟩
  · exact ⟨l, t, by rwa [he]⟩
  · exact ⟨l, t, by rwa [he]⟩

/-- Turns that leave steps in the queue and use the limit up are the whole history. -/
theorem Turns.history_stopped {c : Calculation} {s t : SizeSpec} {us : List Turn}
    {l : List LogEntry} (h : c.Turns s us l t) (ht : t.queue ≠ []) :
    c.history us.length s = ⟨us, l, .stopped t⟩ := by
  have hadd := h.history_add 0
  rw [Nat.add_zero, history_zero c ht] at hadd
  rw [hadd]
  simp [History.after]

/-- Turns that empty the queue are the whole history, however much the limit leaves. -/
theorem Turns.history_emptied {c : Calculation} {s t : SizeSpec} {us : List Turn}
    {l : List LogEntry} (h : c.Turns s us l t) (ht : t.queue = []) {n : Nat}
    (hn : us.length ≤ n) : c.history n s = ⟨us, l, .emptied t⟩ := by
  have hadd := h.history_add (n - us.length)
  rw [Nat.add_sub_cancel' hn, history_nil c _ ht] at hadd
  rw [hadd]
  simp [History.after]

/-- What every turn keeps, of the turns that have a property, holds of every size of a run whose
turns have it. -/
theorem Turns.invariant {c : Calculation} {P : SizeSpec → Prop} {Q : Turn → Prop}
    (hqueue : ∀ s queue, P s → P (s.withQueue queue))
    (hturn : ∀ {step given next u l}, c.turn step given = ⟨l, .ok (u, next)⟩ → Q u → P given → P next)
    {s t : SizeSpec} {us : List Turn} {l : List LogEntry} (h : c.Turns s us l t)
    (hQ : ∀ u ∈ us, Q u) (hs : P s) : (∀ u ∈ us, P u.given) ∧ P t := by
  induction h with
  | nil s => exact ⟨nofun, hs⟩
  | @cons s next t step rest u us l l' front done later ih =>
    have hgiven : P (s.withQueue rest) := hqueue s rest hs
    have hnext := hturn done (hQ u List.mem_cons_self) hgiven
    obtain ⟨hus, ht⟩ := ih (fun v hv => hQ v (List.mem_cons_of_mem u hv)) hnext
    refine ⟨fun v hv => ?_, ht⟩
    rcases List.mem_cons.1 hv with rfl | hv
    · rw [(turn_eq_ok done).2.1]
      exact hgiven
    · exact hus v hv

theorem history_invariant {c : Calculation} {P : SizeSpec → Prop} {Q : Turn → Prop}
    (hqueue : ∀ s queue, P s → P (s.withQueue queue))
    (hturn : ∀ {step given next u l}, c.turn step given = ⟨l, .ok (u, next)⟩ → Q u → P given → P next)
    {n : Nat} {s : SizeSpec} (hQ : ∀ u ∈ (c.history n s).turns, Q u) (hs : P s) :
    ∀ t ∈ (c.history n s).sizes, P t := by
  have hsizes : ∀ {us : List Turn} {t : SizeSpec}, (∀ u ∈ us, P u.given) ∧ P t →
      ∀ v ∈ us.map Turn.given ++ [t], P v := by
    rintro us t ⟨hus, ht⟩ v hv
    rcases List.mem_append.1 hv with hv | hv
    · obtain ⟨u, hu, rfl⟩ := List.mem_map.1 hv
      exact hus u hu
    · cases List.mem_singleton.1 hv
      exact ht
  rcases history_cases c n s with ⟨us, l, t, hts, _, _, he⟩ | ⟨us, l, t, hts, _, _, he⟩ |
    ⟨us, l, t, step, rest, f, hts, _, _, _, he⟩
  · rw [he] at hQ ⊢
    exact hsizes (hts.invariant hqueue hturn hQ hs)
  · rw [he] at hQ ⊢
    exact hsizes (hts.invariant hqueue hturn hQ hs)
  · rw [he] at hQ ⊢
    obtain ⟨hus, ht⟩ := hts.invariant hqueue hturn hQ hs
    exact hsizes ⟨hus, hqueue t rest ht⟩

theorem history_emptied_iff (c : Calculation) (n : Nat) (s t : SizeSpec) :
    (c.history n s).ending = .emptied t ↔
      ∃ us l, c.Turns s us l t ∧ us.length ≤ n ∧ t.queue = [] := by
  constructor
  · intro h
    rcases history_cases c n s with ⟨us, l, t', hts, hlen, ht, he⟩ | ⟨_, _, _, _, _, _, he⟩ |
      ⟨_, _, _, _, _, _, _, _, _, _, he⟩
    · rw [he] at h
      cases h
      exact ⟨us, l, hts, hlen, ht⟩
    · rw [he] at h
      cases h
    · rw [he] at h
      cases h
  · rintro ⟨us, l, hts, hlen, ht⟩
    rw [hts.history_emptied ht hlen]

theorem history_stopped_iff (c : Calculation) (n : Nat) (s t : SizeSpec) :
    (c.history n s).ending = .stopped t ↔
      ∃ us l, c.Turns s us l t ∧ us.length = n ∧ t.queue ≠ [] := by
  constructor
  · intro h
    rcases history_cases c n s with ⟨_, _, _, _, _, _, he⟩ | ⟨us, l, t', hts, hlen, ht, he⟩ |
      ⟨_, _, _, _, _, _, _, _, _, _, he⟩
    · rw [he] at h
      cases h
    · rw [he] at h
      cases h
      exact ⟨us, l, hts, hlen, ht⟩
    · rw [he] at h
      cases h
  · rintro ⟨us, l, hts, hlen, ht⟩
    rw [← hlen, hts.history_stopped ht]

/-- No run executes more steps than it was given. -/
theorem executed_length_le (c : Calculation) (n : Nat) (s : SizeSpec) :
    (c.history n s).executed.length ≤ n := by
  rcases history_cases c n s with ⟨us, l, t, _, hlen, _, he⟩ | ⟨us, l, t, _, hlen, _, he⟩ |
    ⟨us, l, t, step, rest, f, _, hlen, _, _, he⟩
  · rw [he]
    simpa [History.executed] using hlen
  · rw [he]
    simpa [History.executed] using Nat.le_of_eq hlen
  · rw [he]
    simpa [History.executed] using Nat.succ_le_of_lt hlen

end Calculation

namespace Engine

/-! ## The failure at the limit -/

/-- Whether the failure at the limit can describe the size that it is about. -/
def describable (original : Mapping) : Bool := (Value.map original).withoutSnapshot.printable

theorem limitReached_describable (e : Engine) {original : Mapping} (pending : Nat)
    (h : describable original = true) :
    e.limitReached original pending =
      ⟨[.error ((SizingError.stepLimit e.config.maxSteps pending).message
          ++ SizingError.forSize (Value.map original).description)],
        .error (.sizing (.stepLimit e.config.maxSteps pending))⟩ := by
  have hd : Value.description? (.map original) = .ok (Value.map original).description := if_pos h
  unfold limitReached
  rw [hd]
  rfl

theorem limitReached_undescribable (e : Engine) {original : Mapping} (pending : Nat)
    (h : describable original = false) :
    e.limitReached original pending = ⟨[], .error (.fault .numberTooLong)⟩ := by
  have hd : Value.description? (.map original) = .error .numberTooLong :=
    if_neg (ne_true_of_eq_false h)
  unfold limitReached
  rw [hd]
  rfl

theorem limitReached_fails (e : Engine) (original : Mapping) (pending : Nat) :
    ∃ f, (e.limitReached original pending).result = .error f := by
  cases h : describable original with
  | true => exact ⟨_, by rw [limitReached_describable e pending h]⟩
  | false => exact ⟨_, by rw [limitReached_undescribable e pending h]⟩

/-! ## Histories of engines -/

/-- The calculation that an engine runs on a normalized size, whose snapshot it keeps. -/
def calculation (e : Engine) (real : RealDimension) (s : SizeSpec) : Calculation :=
  ⟨e, e.resolveAt e.nesting, real, s.original⟩

/-- The history of what an engine does with a normalized size. -/
def historyOf (e : Engine) (real : RealDimension) (s : SizeSpec) : History :=
  (e.calculation real s).history e.config.maxSteps.steps s

/-- Calculating is normalizing, and then what the history comes to. -/
theorem calculate_eq_outcome (e : Engine) (size : Value) (real : RealDimension) :
    e.calculate size real =
      e.normalize size >>= fun s => (e.historyOf real s).outcome (e.calculation real s) := by
  unfold calculate calculateWith
  congr 1
  funext s
  exact Calculation.drain_eq_outcome (e.calculation real s) e.config.maxSteps.steps s

theorem calculate_of_normalize {e : Engine} {size : Value} {s : SizeSpec} (real : RealDimension)
    (hs : (e.normalize size).result = .ok s) :
    e.calculate size real =
      ⟨(e.normalize size).entries ++ ((e.historyOf real s).outcome (e.calculation real s)).entries,
        ((e.historyOf real s).outcome (e.calculation real s)).result⟩ := by
  rw [calculate_eq_outcome, Logged.bind_ok _ hs]

/-- A calculation that returns has emptied its queue in turns. -/
theorem turns_of_calculate {e : Engine} {size : Value} {real : RealDimension} {s t : SizeSpec}
    (hs : (e.normalize size).result = .ok s) (ht : (e.calculate size real).result = .ok t) :
    ∃ us l, (e.calculation real s).Turns s us l t ∧ t.queue = [] ∧
      e.historyOf real s = ⟨us, l, .emptied t⟩ := by
  rw [calculate_of_normalize real hs] at ht
  have hcases := (e.calculation real s).history_cases e.config.maxSteps.steps s
  rcases hcases with ⟨us, l, t', hts, _, hq, he⟩ | ⟨us, l, t', _, _, _, he⟩ |
    ⟨us, l, t', step, rest, f, _, _, _, _, he⟩
  · have hout : (⟨us, l, .emptied t'⟩ : History).outcome (e.calculation real s) = ⟨l, .ok t'⟩ := rfl
    rw [historyOf, he, hout] at ht
    cases ht
    exact ⟨us, l, hts, hq, he⟩
  · obtain ⟨f, hf⟩ := e.limitReached_fails s.original t'.queue.length
    have hout : ((⟨us, l, .stopped t'⟩ : History).outcome (e.calculation real s)).result =
        (e.limitReached s.original t'.queue.length).result := rfl
    rw [historyOf, he, hout, hf] at ht
    cases ht
  · rw [historyOf, he] at ht
    cases ht

end Engine

end ImageSizing
