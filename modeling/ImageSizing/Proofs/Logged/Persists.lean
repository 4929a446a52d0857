import ImageSizing.Logged

/-!
# Computations that return the same

`x.Persists y` says that whatever `x` returns, `y` returns too, with the same log; where `x`
fails, nothing is said.  Sequences of parts that persist persist (`Persists.bind`).
-/

namespace ImageSizing.Logged

variable {α β : Type}

/-- Whatever the first computation returns, the second returns with the same log. -/
def Persists (x y : Logged α) : Prop := ∀ a, x.result = .ok a → y = x

theorem Persists.refl (x : Logged α) : x.Persists x := fun _ _ => rfl

theorem Persists.bind {x y : Logged α} {f g : α → Logged β} (h : x.Persists y)
    (hf : ∀ a, (f a).Persists (g a)) : (x >>= f).Persists (y >>= g) := by
  intro b hb
  obtain ⟨a, ha, hfa⟩ := bind_result_eq_ok_iff.1 hb
  rw [h a ha, bind_ok g ha, bind_ok f ha, hf a b hfa]

/-- A failure persists in everything. -/
theorem Persists.of_error {x : Logged α} {e : Failure} (h : x.result = .error e) (y : Logged α) :
    x.Persists y := by
  intro a ha
  rw [h] at ha
  cases ha

end ImageSizing.Logged
