import ImageSizing.Proofs.Value.Mapping
import ImageSizing.Text.Split

/-!
# Data

Values that a file may hold: nothing, truth values, numbers, text, and sequences and mappings
of these, one inside another.  No whole number in them and no run of digits in their texts is
longer than `Numeral.digitLimit`.  Data can be printed, a copy of data is data, and so is
whatever stands under a key.

    v.IsData → v.printable = true        (printable_of_isData)
    v.IsData → v.copy.IsData             (isData_copy)
-/

namespace ImageSizing

namespace Numeral

/-- No run of digits is longer than a limit. -/
def RunsWithin (limit : Nat) (cs : List Char) : Prop :=
  ∀ run, run <:+: cs → (∀ c ∈ run, c.isDigit = true) → run.length ≤ limit

theorem RunsWithin.of_infix {limit : Nat} {cs ds : List Char} (h : RunsWithin limit cs)
    (hds : ds <:+: cs) : RunsWithin limit ds :=
  fun run hrun => h run (hrun.trans hds)

/-- A text with few digits has no long run of them. -/
theorem runsWithin_of_countP {limit : Nat} {cs : List Char} (h : cs.countP Char.isDigit ≤ limit) :
    RunsWithin limit cs := by
  intro run hrun hdigits
  calc run.length = run.countP Char.isDigit := (List.countP_eq_length.2 hdigits).symm
    _ ≤ cs.countP Char.isDigit := hrun.sublist.countP_le
    _ ≤ limit := h

end Numeral

namespace Value

mutual

/-- Data of any depth, with numerals that can be converted. -/
def IsData : Value → Prop
  | .nothing | .bool _ | .float _ => True
  | .int n => Numeral.printable n = true
  | .str s => Numeral.RunsWithin Numeral.digitLimit s.toList
  | .list items => AreData items
  | .tuple items => AreData items
  | .map entries => HoldsData entries
  | _ => False

def AreData : List Value → Prop
  | [] => True
  | v :: rest => IsData v ∧ AreData rest

/-- Entries whose keys and values are data. -/
def HoldsData : List (Value × Value) → Prop
  | [] => True
  | (k, v) :: rest => IsData k ∧ IsData v ∧ HoldsData rest

end

theorem isData_nothing : IsData .nothing := trivial

/-- A text with few digits is data. -/
theorem isData_str {s : String} (h : s.toList.countP Char.isDigit ≤ Numeral.digitLimit) :
    (Value.str s).IsData :=
  Numeral.runsWithin_of_countP h

theorem areData_iff {items : List Value} : AreData items ↔ ∀ v ∈ items, v.IsData := by
  induction items with
  | nil => simp [AreData]
  | cons v rest ih => simp [AreData, ih]

mutual

/-- Data can be printed. -/
theorem printable_of_isData : (v : Value) → v.IsData → v.printable = true
  | .int _, h => h
  | .list items, h => printable_of_areData items h
  | .tuple items, h => printable_of_areData items h
  | .map entries, h => printable_of_holdsData entries h
  | .nothing, _ | .bool _, _ | .float _, _ | .str _, _ => rfl
  | .dim .., h | .real _, h | .pixels _, h | .spec .., h | .step _, h | .callable _, h
  | .foreign, h => h.elim

theorem printable_of_areData : (items : List Value) → AreData items → printableItems items = true
  | [], _ => rfl
  | v :: rest, h => by
    show (v.printable && printableItems rest) = true
    rw [printable_of_isData v h.1, printable_of_areData rest h.2]
    rfl

theorem printable_of_holdsData : (m : List (Value × Value)) → HoldsData m → printableEntries m = true
  | [], _ => rfl
  | (k, v) :: rest, h => by
    show (k.printable && v.printable && printableEntries rest) = true
    rw [printable_of_isData k h.1, printable_of_isData v h.2.1, printable_of_holdsData rest h.2.2]
    rfl

end

mutual

theorem isData_copy : (v : Value) → v.IsData → v.copy.IsData
  | .list items, h => areData_copyItems items h
  | .tuple items, h => areData_copyItems items h
  | .map entries, h => holdsData_copyEntries entries h
  | .nothing, h | .bool _, h | .int _, h | .float _, h | .str _, h => h
  | .dim .., h | .real _, h | .pixels _, h | .spec .., h | .step _, h | .callable _, h
  | .foreign, h => h.elim

theorem areData_copyItems : (items : List Value) → AreData items → AreData (copyItems items)
  | [], _ => trivial
  | v :: rest, h => ⟨isData_copy v h.1, areData_copyItems rest h.2⟩

/-- Only the values of entries are copied. -/
theorem holdsData_copyEntries : (m : List (Value × Value)) → HoldsData m → HoldsData (copyEntries m)
  | [], _ => trivial
  | (_, v) :: rest, h => ⟨h.1, isData_copy v h.2.1, holdsData_copyEntries rest h.2.2⟩

end

/-- What stands under a key is data, and so is the nothing where there is no entry. -/
theorem isData_get {m : Mapping} (h : HoldsData m) (key : String) : (Mapping.get m key).IsData := by
  unfold Mapping.get
  induction m with
  | nil => exact isData_nothing
  | cons e m ih =>
    obtain ⟨k, v⟩ := e
    by_cases hk : Mapping.isKey key k = true
    · rw [Mapping.get?_cons_of_isKey hk]
      exact h.2.1
    · rw [Mapping.get?_cons_of_not_isKey (by simpa using hk)]
      exact ih h.2.2

end Value

end ImageSizing
