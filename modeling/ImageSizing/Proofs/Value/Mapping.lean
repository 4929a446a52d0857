import ImageSizing.Size.Canonical

/-!
# Mappings and copies

Looking up a key after an insertion, and what a copy keeps: the values that count as
present, the ready-made dimensions, and whether everything in it can be printed.

    (m.insert key v).get key = v             (get_insert_self)
    k ≠ key → (m.insert key v).get k = m.get k   (get_insert_of_ne)
-/

namespace ImageSizing

namespace Mapping

theorem get?_cons_str (k key : String) (v : Value) (m : Mapping) :
    get? key ((.str k, v) :: m) = if k = key then some v else get? key m := by
  conv => lhs; unfold get?

theorem get?_cons_of_not_isKey {k v : Value} {key : String} (h : isKey key k = false)
    (m : Mapping) : get? key ((k, v) :: m) = get? key m := by
  cases k with
  | str s =>
    have hne : s ≠ key := by simpa [isKey] using h
    rw [get?_cons_str, if_neg hne]
  | _ => rfl

theorem get?_cons_of_isKey {k : Value} {key : String} (h : isKey key k = true) (v : Value)
    (m : Mapping) : get? key ((k, v) :: m) = some v := by
  cases k with
  | str s =>
    have heq : s = key := by simpa [isKey] using h
    rw [get?_cons_str, if_pos heq]
  | _ => cases h

theorem isKey_of_ne {k : Value} {key key' : String} (h : isKey key k = true) (hne : key' ≠ key) :
    isKey key' k = false := by
  cases k with
  | str s =>
    have heq : s = key := by simpa [isKey] using h
    simpa [isKey, heq] using hne.symm
  | _ => cases h

theorem get?_insert_self (key : String) (v : Value) (m : Mapping) :
    get? key (insert key v m) = some v := by
  induction m with
  | nil => rw [insert, get?_cons_str, if_pos rfl]
  | cons e m ih =>
    obtain ⟨k, w⟩ := e
    unfold insert
    by_cases h : isKey key k = true
    · rw [if_pos h, get?_cons_of_isKey h]
    · rw [if_neg h, get?_cons_of_not_isKey (by simpa using h), ih]

theorem get?_insert_of_ne {key key' : String} (hne : key' ≠ key) (v : Value) (m : Mapping) :
    get? key' (insert key v m) = get? key' m := by
  induction m with
  | nil => rw [insert, get?_cons_str, if_neg hne.symm]
  | cons e m ih =>
    obtain ⟨k, w⟩ := e
    unfold insert
    by_cases h : isKey key k = true
    · have hk := isKey_of_ne h hne
      rw [if_pos h, get?_cons_of_not_isKey hk, get?_cons_of_not_isKey hk]
    · rw [if_neg h]
      by_cases hk : isKey key' k = true
      · rw [get?_cons_of_isKey hk, get?_cons_of_isKey hk]
      · rw [get?_cons_of_not_isKey (by simpa using hk), get?_cons_of_not_isKey (by simpa using hk), ih]

theorem get_insert_self (key : String) (v : Value) (m : Mapping) :
    (insert key v m).get key = v := by
  unfold get
  rw [get?_insert_self]
  rfl

theorem get_insert_of_ne {key key' : String} (hne : key' ≠ key) (v : Value) (m : Mapping) :
    (insert key v m).get key' = m.get key' := by
  unfold get
  rw [get?_insert_of_ne hne]

/-- A mapping stands for itself. -/
theorem ofValue_map (m : Mapping) : ofValue (.map m) = .ok m := by
  cases m <;> rfl

end Mapping

namespace Value

/-! ## Copies -/

theorem get?_copyEntries (key : String) (m : Mapping) :
    Mapping.get? key (copyEntries m) = (Mapping.get? key m).map copy := by
  induction m with
  | nil => rfl
  | cons e m ih =>
    obtain ⟨k, v⟩ := e
    show Mapping.get? key ((k, copy v) :: copyEntries m) = _
    by_cases h : Mapping.isKey key k = true
    · rw [Mapping.get?_cons_of_isKey h, Mapping.get?_cons_of_isKey h]
      rfl
    · have hk : Mapping.isKey key k = false := by simpa using h
      rw [Mapping.get?_cons_of_not_isKey hk, Mapping.get?_cons_of_not_isKey hk, ih]

theorem get_copyEntries (key : String) (m : Mapping) :
    Mapping.get (copyEntries m) key = (Mapping.get m key).copy := by
  unfold Mapping.get
  rw [get?_copyEntries]
  cases Mapping.get? key m <;> rfl

theorem isTruthy_copy (v : Value) : v.copy.isTruthy = v.isTruthy := by
  cases v with
  | list items => cases items <;> rfl
  | tuple items => cases items <;> rfl
  | map entries => cases entries <;> rfl
  | _ => rfl

theorem copyEntries_eq_map (m : Mapping) : copyEntries m = m.map fun e => (e.1, e.2.copy) := by
  induction m with
  | nil => rfl
  | cons e m ih =>
    obtain ⟨k, v⟩ := e
    show (k, v.copy) :: copyEntries m = _
    rw [ih]
    rfl

mutual

/-- A copy of a copy is the copy. -/
theorem copy_copy : (v : Value) → v.copy.copy = v.copy
  | .list items => congrArg Value.list (copyItems_copyItems items)
  | .tuple items => congrArg Value.list (copyItems_copyItems items)
  | .map entries => congrArg Value.map (copyEntries_copyEntries entries)
  | .nothing | .bool _ | .int _ | .float _ | .str _ | .dim .. | .real _ | .pixels _ | .spec ..
  | .step _ | .callable _ | .foreign => rfl

theorem copyItems_copyItems : (items : List Value) → copyItems (copyItems items) = copyItems items
  | [] => rfl
  | v :: rest => by
    show v.copy.copy :: copyItems (copyItems rest) = v.copy :: copyItems rest
    rw [copy_copy v, copyItems_copyItems rest]

theorem copyEntries_copyEntries : (m : List (Value × Value)) →
    copyEntries (copyEntries m) = copyEntries m
  | [] => rfl
  | (k, v) :: rest => by
    show (k, v.copy.copy) :: copyEntries (copyEntries rest) = (k, v.copy) :: copyEntries rest
    rw [copy_copy v, copyEntries_copyEntries rest]

end

mutual

/-- A copy can be printed if the value can. -/
theorem printable_copy : (v : Value) → v.copy.printable = v.printable
  | .list items => printable_copyItems items
  | .tuple items => printable_copyItems items
  | .map entries => printable_copyEntries entries
  | .nothing | .bool _ | .int _ | .float _ | .str _ | .dim .. | .real _ | .pixels _ | .spec ..
  | .step _ | .callable _ | .foreign => rfl

theorem printable_copyItems : (items : List Value) →
    printableItems (copyItems items) = printableItems items
  | [] => rfl
  | v :: rest => by
    show (v.copy.printable && printableItems (copyItems rest)) = (v.printable && printableItems rest)
    rw [printable_copy v, printable_copyItems rest]

theorem printable_copyEntries : (m : List (Value × Value)) →
    printableEntries (copyEntries m) = printableEntries m
  | [] => rfl
  | (k, v) :: rest => by
    show (k.printable && v.copy.printable && printableEntries (copyEntries rest)) =
      (k.printable && v.printable && printableEntries rest)
    rw [printable_copy v, printable_copyEntries rest]

end

/-! ## Printable mappings -/

theorem printableEntries_iff {m : Mapping} :
    printableEntries m = true ↔ ∀ e ∈ m, e.1.printable = true ∧ e.2.printable = true := by
  induction m with
  | nil => simp [printableEntries]
  | cons e m ih =>
    obtain ⟨k, v⟩ := e
    simp [printableEntries, ih]

theorem printable_get {m : Mapping} (h : printableEntries m = true) (key : String) :
    (Mapping.get m key).printable = true := by
  unfold Mapping.get
  induction m with
  | nil => rfl
  | cons e m ih =>
    obtain ⟨k, v⟩ := e
    have hall := printableEntries_iff.1 h
    have hrest : printableEntries m = true :=
      printableEntries_iff.2 fun e he => hall e (List.mem_cons_of_mem _ he)
    by_cases hk : Mapping.isKey key k = true
    · rw [Mapping.get?_cons_of_isKey hk]
      exact (hall (k, v) List.mem_cons_self).2
    · rw [Mapping.get?_cons_of_not_isKey (by simpa using hk)]
      exact ih hrest

theorem printable_erase {m : Mapping} (h : printableEntries m = true) (key : String) :
    printableEntries (Mapping.erase m key) = true :=
  printableEntries_iff.2 fun e he => printableEntries_iff.1 h e (List.mem_filter.1 he).1

end Value

end ImageSizing
