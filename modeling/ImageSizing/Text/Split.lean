/-!
# Splitting text

`cut?` finds the first occurrence of a separator and gives what stands before and after it;
`fields` splits at every character of a class.

    cut?_eq_some : cut? sep cs = some (a, b) → cs = a ++ sep ++ b
-/

namespace ImageSizing.Text

/-- What stands before and after the first occurrence of a separator. -/
def cut? (sep : List Char) : List Char → Option (List Char × List Char)
  | [] => if sep.isEmpty then some ([], []) else none
  | c :: cs =>
    if sep.isPrefixOf (c :: cs) then some ([], (c :: cs).drop sep.length)
    else (cut? sep cs).map fun p => (c :: p.1, p.2)

/-- The pieces between the characters of a class, empty ones included. -/
def fields (isSeparator : Char → Bool) : List Char → List (List Char)
  | [] => [[]]
  | c :: cs =>
    if isSeparator c then [] :: fields isSeparator cs
    else
      match fields isSeparator cs with
      | [] => [[c]]
      | f :: fs => (c :: f) :: fs

/-! ## Lemmas -/

theorem cut?_eq_some {sep : List Char} : ∀ {cs a b : List Char},
    cut? sep cs = some (a, b) → cs = a ++ sep ++ b
  | [], a, b, h => by
    unfold cut? at h
    split at h
    · rename_i hs
      simp_all
    · simp at h
  | c :: cs, a, b, h => by
    unfold cut? at h
    split at h
    · rename_i hp
      obtain ⟨t, ht⟩ := List.isPrefixOf_iff_prefix.1 hp
      simp only [Option.some.injEq, Prod.mk.injEq] at h
      obtain ⟨rfl, rfl⟩ := h
      simp [← ht]
    · simp only [Option.map_eq_some_iff, Prod.mk.injEq, Prod.exists] at h
      obtain ⟨a', b', h', rfl, rfl⟩ := h
      simp [cut?_eq_some h']

theorem fields_ne_nil (isSeparator : Char → Bool) (cs : List Char) :
    fields isSeparator cs ≠ [] := by
  cases cs with
  | nil => simp [fields]
  | cons c cs =>
    unfold fields
    split
    · simp
    · split <;> simp

end ImageSizing.Text
