import ImageSizing.Proofs.Value.Keys

/-!
# One entry changed

Changing the value under a text key keeps the order of the entries and what is under other keys
(`get_adjust_of_ne`), and goes together with copying and with selecting entries by their keys.
-/

namespace ImageSizing

namespace Mapping

/-- A mapping with the value under a text key, if there is one, changed. -/
def adjust (key : String) (f : Value → Value) : Mapping → Mapping
  | [] => []
  | (k, v) :: rest => if isKey key k then (k, f v) :: rest else (k, v) :: adjust key f rest

variable {key : String} {f g : Value → Value}

theorem adjust_cons_of_isKey {k : Value} (h : isKey key k = true) (v : Value) (m : Mapping) :
    adjust key f ((k, v) :: m) = (k, f v) :: m := if_pos h

theorem adjust_cons_of_not_isKey {k : Value} (h : isKey key k = false) (v : Value) (m : Mapping) :
    adjust key f ((k, v) :: m) = (k, v) :: adjust key f m := if_neg (by rw [h]; decide)

theorem get?_adjust_self (m : Mapping) : get? key (adjust key f m) = (get? key m).map f := by
  induction m with
  | nil => rfl
  | cons e m ih =>
    obtain ⟨k, v⟩ := e
    cases h : isKey key k with
    | true => rw [adjust_cons_of_isKey h, get?_cons_of_isKey h, get?_cons_of_isKey h, Option.map_some]
    | false =>
      rw [adjust_cons_of_not_isKey h, get?_cons_of_not_isKey h, get?_cons_of_not_isKey h, ih]

/-- A change that leaves the absent value alone. -/
theorem get_adjust_self (hf : f .nothing = .nothing) (m : Mapping) :
    (adjust key f m).get key = f (m.get key) := by
  unfold get
  rw [get?_adjust_self]
  cases get? key m with
  | none => exact hf.symm
  | some v => rfl

theorem get_adjust_of_ne {key' : String} (hne : key' ≠ key) (m : Mapping) :
    (adjust key f m).get key' = m.get key' := by
  have hget : get? key' (adjust key f m) = get? key' m := by
    induction m with
    | nil => rfl
    | cons e m ih =>
      obtain ⟨k, v⟩ := e
      cases h : isKey key k with
      | true =>
        have hk := isKey_of_ne h hne
        rw [adjust_cons_of_isKey h, get?_cons_of_not_isKey hk, get?_cons_of_not_isKey hk]
      | false =>
        rw [adjust_cons_of_not_isKey h]
        cases hk : isKey key' k with
        | true => rw [get?_cons_of_isKey hk, get?_cons_of_isKey hk]
        | false => rw [get?_cons_of_not_isKey hk, get?_cons_of_not_isKey hk, ih]
  unfold get
  rw [hget]

/-- Entries that are selected by their keys, the changed one not among them. -/
theorem filter_adjust {p : Value → Bool} (hp : p (.str key) = false) (m : Mapping) :
    (adjust key f m).filter (fun e => p e.1) = m.filter fun e => p e.1 := by
  induction m with
  | nil => rfl
  | cons e m ih =>
    obtain ⟨k, v⟩ := e
    cases h : isKey key k with
    | true =>
      rw [adjust_cons_of_isKey h, isKey_eq_true h, List.filter_cons, List.filter_cons]
      dsimp only
      rw [hp]
      rfl
    | false => rw [adjust_cons_of_not_isKey h, List.filter_cons, List.filter_cons, ih]

/-- The same with the changed entry among them. -/
theorem filter_adjust_of_selected {p : Value → Bool} (hp : p (.str key) = true) (m : Mapping) :
    (adjust key f m).filter (fun e => p e.1) = adjust key f (m.filter fun e => p e.1) := by
  induction m with
  | nil => rfl
  | cons e m ih =>
    obtain ⟨k, v⟩ := e
    cases h : isKey key k with
    | true =>
      have hk := isKey_eq_true h
      subst hk
      rw [adjust_cons_of_isKey h, List.filter_cons, List.filter_cons]
      dsimp only
      rw [hp, if_pos rfl, if_pos rfl, adjust_cons_of_isKey h]
    | false =>
      rw [adjust_cons_of_not_isKey h, List.filter_cons, List.filter_cons]
      cases hsel : p k with
      | true => rw [if_pos rfl, if_pos rfl, adjust_cons_of_not_isKey h, ih]
      | false => rw [if_neg Bool.false_ne_true, if_neg Bool.false_ne_true, ih]

theorem copyEntries_adjust (hfg : ∀ v, (f v).copy = f v.copy) (m : Mapping) :
    Value.copyEntries (adjust key f m) = adjust key f (Value.copyEntries m) := by
  induction m with
  | nil => rfl
  | cons e m ih =>
    obtain ⟨k, v⟩ := e
    show Value.copyEntries (adjust key f ((k, v) :: m)) = adjust key f ((k, v.copy) :: Value.copyEntries m)
    cases h : isKey key k with
    | true =>
      rw [adjust_cons_of_isKey h, adjust_cons_of_isKey h, ← hfg]
      rfl
    | false =>
      rw [adjust_cons_of_not_isKey h, adjust_cons_of_not_isKey h, ← ih]
      rfl

theorem printable_adjust {m : Mapping} (hf : (f (m.get key)).printable = (m.get key).printable) :
    Value.printableEntries (adjust key f m) = Value.printableEntries m := by
  induction m with
  | nil => rfl
  | cons e m ih =>
    obtain ⟨k, v⟩ := e
    unfold get at hf
    cases h : isKey key k with
    | true =>
      rw [get?_cons_of_isKey h] at hf
      rw [adjust_cons_of_isKey h]
      show (_ && (f v).printable && _) = (_ && v.printable && _)
      rw [show (f v).printable = v.printable from hf]
    | false =>
      rw [get?_cons_of_not_isKey h] at hf
      rw [adjust_cons_of_not_isKey h]
      show (_ && _ && _) = (_ && _ && _)
      rw [ih hf]

theorem get_erase_of_ne {key' : String} (hne : key' ≠ key) (m : Mapping) :
    (m.erase key).get key' = m.get key' := by
  have hget : get? key' (m.erase key) = get? key' m := by
    induction m with
    | nil => rfl
    | cons e m ih =>
      obtain ⟨k, v⟩ := e
      unfold erase at ih ⊢
      rw [List.filter_cons]
      cases h : isKey key k with
      | true =>
        rw [if_neg (by decide), ih, get?_cons_of_not_isKey (isKey_of_ne h hne)]
      | false =>
        rw [if_pos (by decide)]
        cases hk : isKey key' k with
        | true => rw [get?_cons_of_isKey hk, get?_cons_of_isKey hk]
        | false => rw [get?_cons_of_not_isKey hk, get?_cons_of_not_isKey hk, ih]
  unfold get
  rw [hget]

end Mapping

end ImageSizing
