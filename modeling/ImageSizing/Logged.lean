import ImageSizing.Failure

/-!
# Logged computations

A computation that writes a log and then returns or fails.  The log of a sequence is the
logs of its parts, up to and including the first part that fails (`entries_bind_ok`,
`bind_error`).
-/

namespace ImageSizing

/-- One line of a log. -/
inductive LogEntry where
  | warning (text : String)
  | error (text : String)
deriving DecidableEq

namespace LogEntry

def isError : LogEntry → Bool
  | error _ => true
  | warning _ => false

end LogEntry

/-- A log and how the computation that wrote it ended. -/
structure Logged (α : Type) where
  entries : List LogEntry
  result : Except Failure α

namespace Logged

/-- Returns without a word. -/
protected def pure {α : Type} (a : α) : Logged α := ⟨[], .ok a⟩

/-- Runs the second part on the result of the first, unless that failed. -/
protected def bind {α β : Type} (x : Logged α) (f : α → Logged β) : Logged β :=
  match x.result with
  | .error e => ⟨x.entries, .error e⟩
  | .ok a => ⟨x.entries ++ (f a).entries, (f a).result⟩

instance : Monad Logged where
  pure := Logged.pure
  bind := Logged.bind

/-- Fails without a word. -/
def fail {α : Type} (e : Failure) : Logged α := ⟨[], .error e⟩

def warn (text : String) : Logged PUnit := ⟨[.warning text], .ok ⟨⟩⟩

/-- Writes the text of a sizing error and fails with it. -/
def fatal {α : Type} (e : SizingError) : Logged α := ⟨[.error e.message], .error (.sizing e)⟩

/-- A computation without a log. -/
def ofExcept {α : Type} : Except Failure α → Logged α
  | .ok a => ⟨[], .ok a⟩
  | .error e => ⟨[], .error e⟩

/-- A computation without a log whose failures are faults. -/
def ofFaulty {α : Type} : Except Fault α → Logged α
  | .ok a => ⟨[], .ok a⟩
  | .error e => ⟨[], .error (.fault e)⟩

/-! ## Lemmas -/

theorem bind_ok {α β : Type} {x : Logged α} {a : α} (f : α → Logged β) (h : x.result = .ok a) :
    x >>= f = ⟨x.entries ++ (f a).entries, (f a).result⟩ := by
  simp [bind, Logged.bind, h]

theorem bind_error {α β : Type} {x : Logged α} {e : Failure} (f : α → Logged β)
    (h : x.result = .error e) : x >>= f = ⟨x.entries, .error e⟩ := by
  simp [bind, Logged.bind, h]

theorem entries_bind_ok {α β : Type} {x : Logged α} {a : α} (f : α → Logged β)
    (h : x.result = .ok a) : (x >>= f).entries = x.entries ++ (f a).entries := by
  rw [bind_ok f h]

@[simp] theorem pure_bind {α β : Type} (a : α) (f : α → Logged β) : (pure a : Logged α) >>= f = f a :=
  rfl

@[simp] theorem bind_pure {α : Type} (x : Logged α) : x >>= pure = x := by
  obtain ⟨entries, result⟩ := x
  cases result <;> simp [bind, Logged.bind, pure, Logged.pure]

theorem bind_result_eq_ok_iff {α β : Type} {x : Logged α} {f : α → Logged β} {b : β} :
    (x >>= f).result = .ok b ↔ ∃ a, x.result = .ok a ∧ (f a).result = .ok b := by
  constructor
  · intro h
    cases hx : x.result with
    | ok a =>
      rw [bind_ok f hx] at h
      exact ⟨a, rfl, h⟩
    | error e =>
      rw [bind_error f hx] at h
      cases h
  · rintro ⟨a, hx, hf⟩
    rw [bind_ok f hx]
    exact hf

theorem ofFaulty_result_eq_ok_iff {α : Type} {x : Except Fault α} {a : α} :
    (ofFaulty x).result = .ok a ↔ x = .ok a := by
  cases x <;> simp [ofFaulty]

/-- A sequence fails as its first part does, or as the second does on the first's result. -/
theorem bind_result_eq_error_iff {α β : Type} {x : Logged α} {f : α → Logged β} {e : Failure} :
    (x >>= f).result = .error e ↔
      x.result = .error e ∨ ∃ a, x.result = .ok a ∧ (f a).result = .error e := by
  cases hx : x.result with
  | ok a => simp [bind_ok f hx]
  | error e' => simp [bind_error f hx]

theorem ofFaulty_result_eq_error_iff {α : Type} {x : Except Fault α} {e : Failure} :
    (ofFaulty x).result = .error e ↔ ∃ fault, x = .error fault ∧ e = .fault fault := by
  cases x <;> simp [ofFaulty, eq_comm]

theorem bind_assoc {α β γ : Type} (x : Logged α) (f : α → Logged β) (g : β → Logged γ) :
    x >>= f >>= g = x >>= fun a => f a >>= g := by
  obtain ⟨entries, result⟩ := x
  cases result with
  | error e => rfl
  | ok a =>
    simp only [bind, Logged.bind]
    cases (f a).result <;> simp

end Logged

end ImageSizing
