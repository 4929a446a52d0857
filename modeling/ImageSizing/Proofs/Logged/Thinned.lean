import ImageSizing.Logged

/-!
# Logs with lines missing

`Thins log gone rest` says that a log without some of its lines is another log, up to the texts of
errors; the lines that are gone are listed in order.  Two computations are alike under a relation of
their results (`Alike`) if nothing is gone, and if they return related results or fail with errors of
the same class.  A sequence of parts that are alike is alike (`Alike.bind`).
-/

namespace ImageSizing

/-- Failures of the same class, whatever their texts. -/
def Failure.SameClass : Failure → Failure → Prop
  | .sizing err, .sizing err' => err.kind = err'.kind
  | .fault f, .fault f' => f.kind = f'.kind
  | _, _ => False

theorem Failure.SameClass.refl (f : Failure) : f.SameClass f := by
  cases f <;> rfl

/-- The same warning, or two lines about an error. -/
inductive LogEntry.Alike : LogEntry → LogEntry → Prop
  | warning (text : String) : Alike (.warning text) (.warning text)
  | error (text text' : String) : Alike (.error text) (.error text')

theorem LogEntry.Alike.refl (l : LogEntry) : l.Alike l := by
  cases l with
  | warning text => exact .warning text
  | error text => exact .error text text

/-- A log, the lines that are gone, and the log that is left. -/
inductive Thins : List LogEntry → List LogEntry → List LogEntry → Prop
  | nil : Thins [] [] []
  | keep {l l' : LogEntry} {log gone rest : List LogEntry} (h : l.Alike l') (later : Thins log gone rest) :
    Thins (l :: log) gone (l' :: rest)
  | drop {l : LogEntry} {log gone rest : List LogEntry} (later : Thins log gone rest) :
    Thins (l :: log) (l :: gone) rest

namespace Thins

variable {log log' gone gone' rest rest' : List LogEntry}

theorem append (h : Thins log gone rest) (h' : Thins log' gone' rest') :
    Thins (log ++ log') (gone ++ gone') (rest ++ rest') := by
  induction h with
  | nil => exact h'
  | keep hl later ih => exact .keep hl ih
  | drop later ih => exact .drop ih

/-- A whole log may be left. -/
theorem refl (log : List LogEntry) : Thins log [] log := by
  induction log with
  | nil => exact .nil
  | cons l log ih => exact .keep (.refl l) ih

/-- A whole log may be gone. -/
theorem all (log : List LogEntry) : Thins log log [] := by
  induction log with
  | nil => exact .nil
  | cons l log ih => exact .drop ih

end Thins

/-- Two ways to end: related results, or errors of the same class. -/
inductive EndAlike {α β : Type} (R : α → β → Prop) : Except Failure α → Except Failure β → Prop
  | returned {a : α} {b : β} (h : R a b) : EndAlike R (.ok a) (.ok b)
  | failed {f f' : Failure} (h : f.SameClass f') : EndAlike R (.error f) (.error f')

theorem EndAlike.cases {α β : Type} {R : α → β → Prop} {x : Except Failure α} {y : Except Failure β}
    (h : EndAlike R x y) :
    (∃ f f', x = .error f ∧ y = .error f' ∧ f.SameClass f') ∨
      ∃ a b, x = .ok a ∧ y = .ok b ∧ R a b := by
  cases h with
  | returned hab => exact .inr ⟨_, _, rfl, rfl, hab⟩
  | failed hclass => exact .inl ⟨_, _, rfl, rfl, hclass⟩

theorem EndAlike.imp {α β : Type} {R S : α → β → Prop} {x : Except Failure α} {y : Except Failure β}
    (h : EndAlike R x y) (hRS : ∀ a b, R a b → S a b) : EndAlike S x y := by
  cases h with
  | returned hab => exact .returned (hRS _ _ hab)
  | failed hclass => exact .failed hclass

namespace Logged

variable {α β γ δ : Type} {R : α → β → Prop} {S : γ → δ → Prop}

/-- Two computations that write the same up to the texts of errors and end alike. -/
structure Alike (R : α → β → Prop) (x : Logged α) (y : Logged β) : Prop where
  log : Thins x.entries [] y.entries
  ending : EndAlike R x.result y.result

theorem Alike.pure {a : α} {b : β} (h : R a b) : Alike R (Pure.pure a) (Pure.pure b) :=
  ⟨.nil, .returned h⟩

theorem Alike.fail {f f' : Failure} (h : f.SameClass f') : Alike R (Logged.fail f) (Logged.fail f') :=
  ⟨.nil, .failed h⟩

theorem Alike.fatal {err err' : SizingError} (h : err.kind = err'.kind) :
    Alike R (Logged.fatal err) (Logged.fatal err') :=
  ⟨.keep (.error _ _) .nil, .failed h⟩

/-- A computation and itself. -/
theorem Alike.refl {R : α → α → Prop} (x : Logged α) (h : ∀ a, x.result = .ok a → R a a) :
    Alike R x x := by
  refine ⟨.refl _, ?_⟩
  cases hx : x.result with
  | ok a => exact .returned (h a hx)
  | error f => exact .failed (.refl f)

theorem Alike.bind {x : Logged α} {y : Logged β} {f : α → Logged γ} {g : β → Logged δ}
    (h : Alike R x y) (hf : ∀ a b, R a b → Alike S (f a) (g b)) : Alike S (x >>= f) (y >>= g) := by
  obtain ⟨log, result⟩ := x
  obtain ⟨log', result'⟩ := y
  obtain ⟨hlog, hend⟩ := h
  cases hend with
  | @returned a b hab =>
    obtain ⟨hlater, hends⟩ := hf a b hab
    exact ⟨hlog.append hlater, hends⟩
  | failed hclass => exact ⟨hlog, .failed hclass⟩

end Logged

end ImageSizing
