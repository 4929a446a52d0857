import ImageSizing.Template.Basic
import ImageSizing.Proofs.Value.Slashless

/-!
# Items without a slash

A value is without a slash if its text has none.  The same then holds of its items, by number and
under texts (`slashless_itemUnder`).
-/

namespace ImageSizing

open Text

theorem Value.slashless_of_quoted? {v : Value} {s : String} (h : v.Slashless)
    (hs : v.quoted? = .ok s) : Text.Slashless s := by
  unfold quoted? at hs
  split at hs
  · cases hs
    exact h
  · cases hs

theorem Value.slashless_of_display? {v : Value} {s : String} (h : v.Slashless)
    (hs : v.display? = .ok s) : Text.Slashless s := by
  unfold display? at hs
  split at hs
  · cases hs
    exact slashless_display.2 h
  · cases hs

namespace Template

variable {v w : Value} {i : Nat} {key : String}

theorem mem_of_itemAt {α : Type} {what : String} {items : List α} {a : α}
    (h : itemAt what items i = .ok a) : a ∈ items := by
  unfold itemAt at h
  split at h
  · rename_i b hb
    cases h
    exact List.mem_of_getElem? hb
  · cases h

theorem slashless_characterAt {s t : String} (hs : Text.Slashless s)
    (h : characterAt s i = .ok t) : Text.Slashless t := by
  unfold characterAt at h
  cases hitem : itemAt "string" s.toList i with
  | error f =>
    rw [hitem] at h
    cases h
  | ok c =>
    rw [hitem] at h
    cases h
    intro hmem
    obtain rfl : '/' = c := by simpa using hmem
    exact hs (mem_of_itemAt hitem)

theorem slashless_entryAt {m : Mapping} (hm : (Value.map m).Slashless)
    (h : entryAt m i = .ok w) : w.Slashless := by
  unfold entryAt at h
  split at h
  · rename_i e he
    cases h
    exact (Value.slashless_map.1 hm e (List.mem_of_find?_eq_some he)).2
  · cases h

theorem slashless_entryUnder {m : Mapping} (hm : (Value.map m).Slashless)
    (h : entryUnder m key = .ok w) : w.Slashless := by
  unfold entryUnder at h
  split at h
  · rename_i v hv
    cases h
    exact Value.slashless_get hm hv
  · cases h

theorem slashless_atIndex (hv : v.Slashless) (h : atIndex v i = .ok w) : w.Slashless := by
  unfold atIndex at h
  split at h
  · rename_i s
    cases hcharacter : characterAt s i with
    | error f =>
      rw [hcharacter] at h
      cases h
    | ok t =>
      rw [hcharacter] at h
      cases h
      exact Value.slashless_str.2 (slashless_characterAt (Value.slashless_str.1 hv) hcharacter)
  · exact Value.slashless_list.1 hv w (mem_of_itemAt h)
  · exact Value.slashless_tuple.1 hv w (mem_of_itemAt h)
  · exact slashless_entryAt hv h
  · cases h

theorem slashless_underKey (hv : v.Slashless) (h : underKey v key = .ok w) : w.Slashless := by
  unfold underKey at h
  split at h
  · cases h
  · cases h
  · cases h
  · exact slashless_entryUnder hv h
  · cases h

/-- The items of a value without a slash have none. -/
theorem slashless_itemUnder {index : List Char} (hv : v.Slashless)
    (h : itemUnder v index = .ok w) : w.Slashless := by
  obtain ⟨i, _, h⟩ := bind_eq_ok h
  cases i with
  | some i => exact slashless_atIndex hv h
  | none => exact slashless_underKey hv h

end Template

end ImageSizing
