import ImageSizing.Logged

/-!
# Contained failures

A computation is contained if it ends in one of two ways: it returns something with a given
property, or it fails with an error that a user of sizes is to expect.  Those are the errors
of validation and of the step limit, apart from the two that complain about a dimension
which cannot be converted; no fault is among them.  A sequence is contained if its parts
are (`Yields.bind`).
-/

namespace ImageSizing

/-- An error of validation or of the step limit, and not about a conversion. -/
def SizingError.IsExpected (err : SizingError) : Prop :=
  (err.kind = .validation ∨ err.kind = .nonTermination) ∧
    ∀ u, err ≠ .notRelatable u ∧ err ≠ .notAbsolute u

/-- An expected error; a fault is never expected. -/
def Failure.IsExpected : Failure → Prop
  | .sizing err => err.IsExpected
  | .fault _ => False

namespace Logged

variable {α β : Type} {P : α → Prop} {Q : β → Prop}

/-- A computation returns something with a property or fails in an expected way. -/
def Yields (x : Logged α) (P : α → Prop) : Prop :=
  match x.result with
  | .ok a => P a
  | .error f => f.IsExpected

theorem yields_of_ok {x : Logged α} {a : α} (h : x.result = .ok a) (ha : P a) : x.Yields P := by
  unfold Yields
  rw [h]
  exact ha

theorem yields_of_error {x : Logged α} {err : SizingError} (h : x.result = .error (.sizing err))
    (herr : err.IsExpected) : x.Yields P := by
  unfold Yields
  rw [h]
  exact herr

theorem yields_pure {a : α} (h : P a) : (pure a : Logged α).Yields P := h

theorem yields_fatal {err : SizingError} (h : err.IsExpected) : (fatal err : Logged α).Yields P := h

/-- How a computation ends does not depend on its log. -/
theorem Yields.of_result_eq {x y : Logged α} (hx : x.Yields P) (h : y.result = x.result) :
    y.Yields P := by
  unfold Yields
  rw [h]
  exact hx

theorem Yields.bind {x : Logged α} {f : α → Logged β} (hx : x.Yields P)
    (hf : ∀ a, x.result = .ok a → P a → (f a).Yields Q) : (x >>= f).Yields Q := by
  unfold Yields at hx
  cases hr : x.result with
  | ok a =>
    rw [hr] at hx
    rw [bind_ok f hr]
    exact hf a hr hx
  | error e =>
    rw [hr] at hx
    rw [bind_error f hr]
    exact hx

/-- A contained computation returns or fails in an expected way. -/
theorem Yields.cases {x : Logged α} (hx : x.Yields P) :
    (∃ a, x.result = .ok a) ∨ ∃ err, x.result = .error (.sizing err) ∧ err.IsExpected := by
  unfold Yields at hx
  cases hr : x.result with
  | ok a => exact .inl ⟨a, rfl⟩
  | error f =>
    rw [hr] at hx
    cases f with
    | sizing err => exact .inr ⟨err, rfl, hx⟩
    | fault f => exact hx.elim

end Logged

end ImageSizing
