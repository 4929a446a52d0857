import ImageSizing.Dimension.Reading
import ImageSizing.Proofs.Dimension.Spelling
import ImageSizing.Proofs.Number.Quotient

/-!
# Readable dimensions

Ready-made dimensions aside, whatever is read as a dimension is finite (`finite_of_read`):
pixels and factors come with a finite number, and the other two units with no value at all.
Calculations need less, a number with a double (`Readable`), and that is all they keep, as a
factor may come out infinite or as `nan`.
-/

namespace ImageSizing.Dimension

/-- Pixels or a factor with a number that has a double, or a unit without a value. -/
def Readable (d : Dimension) : Prop :=
  match d.unit with
  | .pixel | .factor => ∃ v : Number, d.value = .ofNumber v ∧ v.HasDouble
  | .unspecified | .invalid => d.value = .nothing

/-- Pixels or a factor with a finite number, or a unit without a value. -/
def Finite (d : Dimension) : Prop :=
  match d.unit with
  | .pixel | .factor => ∃ v : Number, d.value = .ofNumber v ∧ v.isFinite = true
  | .unspecified | .invalid => d.value = .nothing

theorem Finite.readable {d : Dimension} (h : d.Finite) : d.Readable := by
  obtain ⟨unit, value⟩ := d
  cases unit with
  | pixel =>
    obtain ⟨v, hvalue, hv⟩ := h
    exact ⟨v, hvalue, Number.hasDouble_of_isFinite hv⟩
  | factor =>
    obtain ⟨v, hvalue, hv⟩ := h
    exact ⟨v, hvalue, Number.hasDouble_of_isFinite hv⟩
  | unspecified => exact h
  | invalid => exact h

theorem readable_unspecified : unspecified.Readable := rfl

theorem readable_factor (x : Binary64) : (factor x).Readable := ⟨.float x, rfl, Number.hasDouble_float x⟩

theorem finite_unspecified : unspecified.Finite := rfl

theorem finite_invalid : invalid.Finite := rfl

theorem finite_factor {x : Binary64} (h : x.isFinite = true) : (factor x).Finite := ⟨.float x, rfl, h⟩

/-! ## Tokens -/

/-- A pixel numeral with a finite double writes an integer with one. -/
theorem isFinite_toInt {t : Numeral.Signed} (hpart : t.part = [])
    (h : t.toBinary64.isFinite = true) : (Number.int t.toInt).isFinite = true := by
  rw [Number.isFinite_int]
  refine Binary64.isFinite_ofRatio_mono (Nat.pow_pos (by decide)) Nat.one_pos ?_ h
  rw [hpart, Numeral.Signed.natAbs_toInt, List.append_nil, Nat.mul_one]
  exact Nat.le_refl _

theorem part_of_pixel? {g : Grammar} {cs : List Char} {t : Numeral.Signed}
    (h : g.pixel? cs = some t) : t.part = [] := by
  obtain ⟨suffix, -, hscan⟩ := Grammar.scan_eq_some_iff.1 h
  obtain ⟨num, -, hpart, -⟩ := Grammar.takeWhole?_eq_some hscan
  exact hpart

theorem finite_ofPixelNumeral {t : Numeral.Signed} {d : Dimension} (hpart : t.part = [])
    (h : ofPixelNumeral t = .ok d) : d.Finite := by
  unfold ofPixelNumeral at h
  by_cases hfin : t.toBinary64.isFinite = true
  · rw [if_pos hfin] at h
    split at h
    · cases h
      exact ⟨.int t.toInt, rfl, isFinite_toInt hpart hfin⟩
    · cases h
  · rw [if_neg hfin] at h
    cases h
    exact finite_invalid

theorem finite_ofFactorNumeral (t : Numeral.Signed) : (ofFactorNumeral t).Finite := by
  unfold ofFactorNumeral
  by_cases hfin : t.toBinary64.isFinite = true
  · rw [if_pos hfin]
    exact finite_factor hfin
  · rw [if_neg hfin]
    exact finite_invalid

theorem finite_ofPercentNumeral (t : Numeral.Signed) : (ofPercentNumeral t).Finite := by
  unfold ofPercentNumeral
  by_cases hfin : t.toBinary64.isFinite = true
  · rw [if_pos hfin]
    exact finite_factor (Binary64.isFinite_div_hundred hfin)
  · rw [if_neg hfin]
    exact finite_invalid

theorem finite_readToken {g : Grammar} {cs : List Char} {d : Dimension}
    (h : readToken g cs = .ok d) : d.Finite := by
  rcases readToken_cases g cs with ⟨t, hpixel, hread⟩ | ⟨-, ⟨t, -, hread⟩ | ⟨t, -, hread⟩ | hread⟩
  · rw [hread] at h
    exact finite_ofPixelNumeral (part_of_pixel? hpixel) h
  · rw [hread] at h
    cases h
    exact finite_ofFactorNumeral t
  · rw [hread] at h
    cases h
    exact finite_ofPercentNumeral t
  · rw [hread] at h
    cases h
    exact finite_invalid

/-! ## Values -/

theorem finite_readText {g : Grammar} {s : String} {d : Dimension}
    (h : readText g s = .ok d) : d.Finite := by
  unfold readText at h
  split at h
  · cases h
    exact finite_unspecified
  · exact finite_readToken h

theorem finite_readNumber {g : Grammar} {v : Number} {d : Dimension}
    (h : readNumber g v = .ok d) : d.Finite := by
  unfold readNumber at h
  split at h
  · exact finite_readText h
  · cases h
    exact finite_invalid

theorem structuredUnit?_cases {v : Value} {u : AxisUnit} (h : structuredUnit? v = some u) :
    u = .pixel ∨ u = .factor := by
  unfold structuredUnit? at h
  split at h
  · cases h
    exact .inl rfl
  · cases h
    exact .inr rfl
  · cases h

theorem finite_readStructured (m : Mapping) : (readStructured m).Finite := by
  unfold readStructured
  split
  · exact finite_unspecified
  · split
    · rename_i u v hunit hnumber
      by_cases hfin : v.isFinite = true
      · rw [if_pos hfin]
        rcases structuredUnit?_cases hunit with rfl | rfl
        · exact ⟨v, rfl, hfin⟩
        · exact ⟨v, rfl, hfin⟩
      · rw [if_neg hfin]
        exact finite_invalid
    · exact finite_invalid

def isReady : Value → Bool
  | .dim .. => true
  | _ => false

/-- What is read from a value that is no ready-made dimension is finite. -/
theorem finite_of_read {g : Grammar} {v : Value} {d : Dimension} (hv : isReady v = false)
    (h : read g v = .ok d) : d.Finite := by
  cases v with
  | dim u v => cases hv
  | str s => exact finite_readText h
  | int n => exact finite_readNumber h
  | float x => exact finite_readNumber h
  | map m =>
    cases h
    exact finite_readStructured m
  | nothing =>
    cases h
    exact finite_unspecified
  | _ =>
    cases h
    exact finite_invalid

end ImageSizing.Dimension
