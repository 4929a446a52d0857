import ImageSizing.Value.Display
import ImageSizing.Proofs.Text.Slashless

/-!
# Printed values without a slash

The printed form of a value holds those of its parts, so that it is without a slash exactly if
they are (`Value.Slashless`).
-/

namespace ImageSizing

open Text

namespace Value

/-- The printed form of a value is without a slash. -/
def Slashless (v : Value) : Prop := Text.Slashless v.quoted

instance (v : Value) : Decidable v.Slashless := inferInstanceAs (Decidable (Text.Slashless v.quoted))

theorem quotedItems_eq_map (items : List Value) : quotedItems items = items.map quoted := by
  induction items with
  | nil => rfl
  | cons v rest ih =>
    show quoted v :: quotedItems rest = _
    rw [ih]
    rfl

theorem quotedEntries_eq_map (m : Mapping) :
    quotedEntries m = m.map fun e => quoted e.1 ++ ": " ++ quoted e.2 := by
  induction m with
  | nil => rfl
  | cons e rest ih =>
    obtain ⟨k, v⟩ := e
    show (quoted k ++ ": " ++ quoted v) :: quotedEntries rest = _
    rw [ih]
    rfl

theorem slashless_tupleText {ts : List String} :
    Text.Slashless (tupleText ts) ↔ ∀ t ∈ ts, Text.Slashless t := by
  unfold tupleText
  split
  · simp +decide
  · rw [slashless_append, slashless_append, slashless_intercalate (by decide)]
    exact ⟨fun h => h.1.2, fun h => ⟨⟨by decide, h⟩, by decide⟩⟩

theorem slashless_mapText {ts : List String} :
    Text.Slashless (mapText ts) ↔ ∀ t ∈ ts, Text.Slashless t := by
  unfold mapText
  rw [slashless_append, slashless_append, slashless_intercalate (by decide)]
  exact ⟨fun h => h.1.2, fun h => ⟨⟨by decide, h⟩, by decide⟩⟩

/-! ## Parts of values -/

theorem slashless_str {s : String} : Slashless (.str s) ↔ Text.Slashless s := slashless_quote

theorem slashless_items {items : List Value} :
    (∀ t ∈ quotedItems items, Text.Slashless t) ↔ ∀ v ∈ items, v.Slashless := by
  rw [quotedItems_eq_map, List.forall_mem_map]
  rfl

theorem slashless_entries {m : Mapping} :
    (∀ t ∈ quotedEntries m, Text.Slashless t) ↔ ∀ e ∈ m, e.1.Slashless ∧ e.2.Slashless := by
  rw [quotedEntries_eq_map, List.forall_mem_map]
  simp +decide [Slashless]

theorem slashless_list {items : List Value} :
    Slashless (.list items) ↔ ∀ v ∈ items, v.Slashless := by
  rw [← slashless_items]
  show Text.Slashless ("[" ++ ", ".intercalate (quotedItems items) ++ "]") ↔ _
  rw [slashless_append, slashless_append, slashless_intercalate (by decide)]
  exact ⟨fun h => h.1.2, fun h => ⟨⟨by decide, h⟩, by decide⟩⟩

theorem slashless_tuple {items : List Value} :
    Slashless (.tuple items) ↔ ∀ v ∈ items, v.Slashless := by
  rw [← slashless_items]
  exact slashless_tupleText

theorem slashless_map {m : Mapping} :
    Slashless (.map m) ↔ ∀ e ∈ m, e.1.Slashless ∧ e.2.Slashless := by
  rw [← slashless_entries]
  exact slashless_mapText

/-- What stands under a key is one of the values of a mapping. -/
theorem exists_mem_of_get? {m : Mapping} {key : String} {v : Value} (h : m.get? key = some v) :
    ∃ k, (k, v) ∈ m := by
  fun_induction Mapping.get? key m with
  | case1 => cases h
  | case2 v' rest =>
    cases h
    exact ⟨.str key, List.mem_cons_self⟩
  | case3 k v' rest hne ih =>
    obtain ⟨k', hmem⟩ := ih h
    exact ⟨k', List.mem_cons_of_mem _ hmem⟩
  | case4 e rest hne ih =>
    obtain ⟨k', hmem⟩ := ih h
    exact ⟨k', List.mem_cons_of_mem _ hmem⟩

theorem slashless_get {m : Mapping} (hm : (Value.map m).Slashless) {key : String} {v : Value}
    (h : m.get? key = some v) : v.Slashless := by
  obtain ⟨k, hmem⟩ := exists_mem_of_get? h
  exact (slashless_map.1 hm (k, v) hmem).2

theorem slashless_display {v : Value} : Text.Slashless v.display ↔ v.Slashless := by
  cases v with
  | str s => exact slashless_str.symm
  | _ => rfl

end Value

end ImageSizing
