import ImageSizing.Logged

/-!
# Faults that do not occur

A computation avoids a fault if it does not end in it.  A sequence avoids a fault if its parts
do (`bind_ne_error`, `Avoids.bind`), and a change of errors does if none is changed into it
(`mapError_ne_error`).
-/

namespace ImageSizing

section

variable {ε δ α β : Type} {e : ε} {x : Except ε α}

theorem pure_ne_error (a : α) : (pure a : Except ε α) ≠ .error e := nofun

theorem bind_ne_error {f : α → Except ε β} (hx : x ≠ .error e) (hf : ∀ a, f a ≠ .error e) :
    x >>= f ≠ .error e := by
  cases x with
  | ok a => exact hf a
  | error e' =>
    intro h
    cases h
    exact hx rfl

theorem map_ne_error (f : α → β) (hx : x ≠ .error e) : x.map f ≠ .error e := by
  cases x with
  | ok a => exact nofun
  | error e' =>
    intro h
    cases h
    exact hx rfl

theorem mapError_ne_error {y : Except δ α} {f : δ → ε} (hf : ∀ d, y = .error d → f d ≠ e) :
    y.mapError f ≠ .error e := by
  cases y with
  | ok a => exact nofun
  | error d =>
    intro h
    cases h
    exact hf d rfl rfl

theorem mapError_fault_ne_error {f : Fault} {y : Except Fault α} (h : y ≠ .error f) :
    y.mapError Failure.fault ≠ .error (.fault f) := by
  refine mapError_ne_error fun d hd hf => h ?_
  rw [hd, Failure.fault.inj hf]

end

namespace Logged

variable {α β : Type} {f : Fault}

/-- A computation does not end in a fault. -/
def Avoids (f : Fault) (x : Logged α) : Prop := x.result ≠ .error (.fault f)

theorem avoids_pure (a : α) : (pure a : Logged α).Avoids f := nofun

theorem avoids_warn (text : String) : (warn text).Avoids f := nofun

theorem avoids_fatal (err : SizingError) : (fatal err : Logged α).Avoids f := nofun

theorem avoids_fail {g : Fault} (h : g ≠ f) : (fail (.fault g) : Logged α).Avoids f := by
  intro hfail
  cases hfail
  exact h rfl

theorem avoids_ofFaulty {x : Except Fault α} (h : x ≠ .error f) : (ofFaulty x).Avoids f := by
  intro hx
  obtain ⟨_, hfault, ⟨⟩⟩ := ofFaulty_result_eq_error_iff.1 hx
  exact h hfault

theorem avoids_ofExcept {x : Except Failure α} (h : x ≠ .error (.fault f)) :
    (ofExcept x).Avoids f := by
  cases x with
  | ok a => exact nofun
  | error e => exact h

theorem Avoids.bind {x : Logged α} {g : α → Logged β} (hx : x.Avoids f)
    (hg : ∀ a, (g a).Avoids f) : (x >>= g).Avoids f := by
  intro h
  rcases bind_result_eq_error_iff.1 h with h | ⟨a, -, h⟩
  · exact hx h
  · exact hg a h

end Logged

end ImageSizing
