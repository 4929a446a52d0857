import ImageSizing.Value.Arithmetic
import ImageSizing.Dimension.Real
import ImageSizing.Size.Spec
import ImageSizing.Proofs.Dimension.Faults
import ImageSizing.Proofs.Logged.Avoided

/-!
# Faults of values

What can go wrong with a loose value has to do with the value: it has no text, no number or no
items, or is not to be calculated with.  That an output cannot be written is found out later,
and by others, so no lemma here allows for a fault of that kind.
-/

namespace ImageSizing

variable {o : OutputFault}

namespace Value

variable {v w : Value}

/-! ## Texts -/

theorem display?_ne_output : v.display? ≠ .error (.output o) := by
  unfold display?
  split <;> nofun

theorem quoted?_ne_output : v.quoted? ≠ .error (.output o) := by
  unfold quoted?
  split <;> nofun

theorem description?_ne_output : v.description? ≠ .error (.output o) := by
  unfold description?
  split <;> nofun

/-! ## Calculations -/

theorem repeatItems_ne_output {α : Type} {count : Nat} {items : List α} :
    repeatItems count items ≠ .error (.output o) := by
  unfold repeatItems
  split
  · nofun
  · split <;> nofun

theorem repeatText_ne_output {count : Nat} {s : String} :
    repeatText count s ≠ .error (.output o) := by
  unfold repeatText
  split
  · nofun
  · exact map_ne_error _ repeatItems_ne_output

theorem repeated_ne_output : repeated v w ≠ .error (.output o) := by
  unfold repeated
  split
  · unfold repeatSequence
    split
    · nofun
    · split
      · exact map_ne_error _ repeatText_ne_output
      · exact map_ne_error _ repeatItems_ne_output
      · exact map_ne_error _ repeatItems_ne_output
      · nofun
  · nofun

theorem joined_ne_output : joined v w ≠ .error (.output o) := by
  unfold joined
  split <;> nofun

theorem times_ne_output : v.times w ≠ .error (.output o) := by
  unfold times
  split
  · exact map_ne_error _ (mapError_ne_error fun _ _ => nofun)
  · split
    · exact repeated_ne_output
    · split
      · exact repeated_ne_output
      · nofun

theorem dividedBy_ne_output : v.dividedBy w ≠ .error (.output o) := by
  unfold dividedBy
  split
  · exact map_ne_error _ (map_ne_error _ (mapError_ne_error fun _ _ => nofun))
  · nofun

theorem plus_ne_output : v.plus w ≠ .error (.output o) := by
  unfold plus
  split
  · exact map_ne_error _ (mapError_ne_error fun _ _ => nofun)
  · split
    · exact joined_ne_output
    · nofun

theorem isBelow_ne_output : v.isBelow w ≠ .error (.output o) := mapError_ne_error fun _ _ => nofun

theorem isAbove_ne_output : v.isAbove w ≠ .error (.output o) := mapError_ne_error fun _ _ => nofun

theorem toBinary64_ne_output : v.toBinary64 ≠ .error (.output o) := by
  unfold toBinary64
  split
  · exact mapError_ne_error fun _ _ => nofun
  · split <;> nofun
  · nofun

theorem isFinite_ne_output : v.isFinite ≠ .error (.output o) := by
  unfold isFinite
  split <;> nofun

theorem roundHalfUp_ne_output : v.roundHalfUp ≠ .error (.output o) := by
  unfold roundHalfUp
  split
  · exact mapError_ne_error fun _ _ => nofun
  · exact bind_ne_error plus_ne_output fun _ => nofun

end Value

/-! ## Mappings -/

theorem Mapping.insertPairs_ne_output {m : Mapping} {index : Nat} {items : List Value} :
    insertPairs m index items ≠ .error (.output o) := by
  induction items generalizing m index with
  | nil => nofun
  | cons v rest ih =>
    unfold insertPairs
    split
    · nofun
    · split
      · nofun
      · exact ih
    · nofun

theorem Mapping.ofValue_ne_output {v : Value} : ofValue v ≠ .error (.output o) := by
  unfold ofValue
  split
  · nofun
  · split
    · nofun
    · split
      · exact insertPairs_ne_output
      · nofun

/-! ## Dimensions -/

/-- The one fault of reading a dimension is a numeral that is too long. -/
theorem Dimension.read_ne_output {g : Grammar} {v : Value} : read g v ≠ .error (.output o) := by
  intro h
  obtain ⟨s, -, h⟩ := read_eq_error.1 h
  obtain ⟨t, -, h⟩ := readText_eq_error.1 h
  obtain ⟨-, -, h⟩ := ofPixelNumeral_eq_error.1 h
  cases h

theorem RealDimension.make?_ne_output {width height : Value} :
    make? width height ≠ .error (.output o) := by
  have haxis : ∀ axis (v : Value), (v.quoted? >>= fun q => Except.error (.axisNotPositive axis q) :
      Except Fault RealDimension) ≠ .error (.output o) :=
    fun axis v => bind_ne_error Value.quoted?_ne_output fun _ => nofun
  unfold make?
  split
  · exact haxis _ _
  · split
    · split
      · exact haxis _ _
      · split
        · nofun
        · exact haxis _ _
    · exact haxis _ _

end ImageSizing
