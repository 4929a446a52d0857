import Mathlib.Data.List.Induction
import ImageSizing.Text.Blank
import ImageSizing.Text.Split

/-!
# Fields and blanks

Splitting at the characters of a class turns a separator between two texts into the concatenation of
their fields (`fields_append`); the fields hold no separators.  Removing the blanks at the ends of a
text leaves one without blanks at its ends (`stripChars_head`, `stripChars_last`), and forgets blanks
that are put there (`stripChars_cons`, `stripChars_concat`).
-/

namespace ImageSizing.Text

/-! ## Fields -/

variable {p : Char → Bool} {c : Char}

theorem fields_cons_of_separator (hc : p c = true) (cs : List Char) :
    fields p (c :: cs) = [] :: fields p cs := by
  conv => lhs; unfold fields
  rw [if_pos hc]

theorem fields_cons_of_not_separator (hc : p c = false) {cs f : List Char} {fs : List (List Char)}
    (h : fields p cs = f :: fs) : fields p (c :: cs) = (c :: f) :: fs := by
  conv => lhs; unfold fields
  rw [if_neg (ne_true_of_eq_false hc), h]

/-- The fields around a separator are those before it and those after it. -/
theorem fields_append (hc : p c = true) (a b : List Char) :
    fields p (a ++ c :: b) = fields p a ++ fields p b := by
  induction a with
  | nil => exact fields_cons_of_separator hc b
  | cons x a ih =>
    rw [List.cons_append]
    cases hx : p x with
    | true => rw [fields_cons_of_separator hx, fields_cons_of_separator hx, ih, List.cons_append]
    | false =>
      obtain ⟨f, fs, hfields⟩ := List.exists_cons_of_ne_nil (fields_ne_nil p a)
      rw [hfields, List.cons_append] at ih
      rw [fields_cons_of_not_separator hx ih, fields_cons_of_not_separator hx hfields,
        List.cons_append]

theorem fields_of_unseparated {cs : List Char} (h : ∀ x ∈ cs, p x = false) : fields p cs = [cs] := by
  induction cs with
  | nil => rfl
  | cons x cs ih =>
    rw [List.forall_mem_cons] at h
    exact fields_cons_of_not_separator h.1 (ih h.2)

/-- No separator is in a field. -/
theorem unseparated_of_mem_fields {cs f : List Char} (h : f ∈ fields p cs) : ∀ x ∈ f, p x = false := by
  induction cs generalizing f with
  | nil =>
    rw [List.mem_singleton.1 h]
    exact List.forall_mem_nil _
  | cons x cs ih =>
    cases hx : p x with
    | true =>
      rw [fields_cons_of_separator hx, List.mem_cons] at h
      rcases h with rfl | h
      · exact List.forall_mem_nil _
      · exact ih h
    | false =>
      obtain ⟨g, gs, hfields⟩ := List.exists_cons_of_ne_nil (fields_ne_nil p cs)
      rw [fields_cons_of_not_separator hx hfields, List.mem_cons] at h
      rcases h with rfl | h
      · exact List.forall_mem_cons.2 ⟨hx, ih (hfields ▸ List.mem_cons_self)⟩
      · exact ih (hfields ▸ List.mem_cons_of_mem _ h)

/-- A text has no separator, or a first one. -/
theorem exists_first_separator (p : Char → Bool) (cs : List Char) : (∀ x ∈ cs, p x = false) ∨
    ∃ a c b, cs = a ++ c :: b ∧ p c = true ∧ ∀ x ∈ a, p x = false := by
  induction cs with
  | nil => exact .inl (List.forall_mem_nil _)
  | cons x cs ih =>
    cases hx : p x with
    | true => exact .inr ⟨[], x, cs, rfl, hx, List.forall_mem_nil _⟩
    | false =>
      rcases ih with hnone | ⟨a, c, b, rfl, hc, ha⟩
      · exact .inl (List.forall_mem_cons.2 ⟨hx, hnone⟩)
      · exact .inr ⟨x :: a, c, b, rfl, hc, List.forall_mem_cons.2 ⟨hx, ha⟩⟩

/-- A text has no separator, or a last one. -/
theorem exists_last_separator (p : Char → Bool) (cs : List Char) : (∀ x ∈ cs, p x = false) ∨
    ∃ a c b, cs = a ++ c :: b ∧ p c = true ∧ ∀ x ∈ b, p x = false := by
  rcases exists_first_separator p cs.reverse with hnone | ⟨a, c, b, hcs, hc, ha⟩
  · exact .inl fun x hx => hnone x (List.mem_reverse.2 hx)
  · refine .inr ⟨b.reverse, c, a.reverse, ?_, hc, fun x hx => ha x (List.mem_reverse.1 hx)⟩
    rw [← List.reverse_reverse cs, hcs]
    simp

/-! ## Blanks -/

theorem stripChars_cons (hc : isBlank c = true) (cs : List Char) :
    stripChars (c :: cs) = stripChars cs := by
  unfold stripChars
  rw [List.dropWhile_cons_of_pos hc]

theorem stripChars_concat (hc : isBlank c = true) (cs : List Char) :
    stripChars (cs ++ [c]) = stripChars cs := by
  unfold stripChars
  rw [List.dropWhile_append]
  split
  · next hall =>
    rw [List.isEmpty_iff.1 hall, List.dropWhile_cons_of_pos hc]
    rfl
  · rw [List.reverse_append, List.reverse_singleton, List.singleton_append,
      List.dropWhile_cons_of_pos hc]

/-- A text without blanks at its ends is left as it is. -/
theorem stripChars_of_ends {cs : List Char} (hhead : ∀ x, cs.head? = some x → isBlank x = false)
    (hlast : ∀ x, cs.getLast? = some x → isBlank x = false) : stripChars cs = cs := by
  have hkeeps : ∀ ds : List Char, (∀ x, ds.head? = some x → isBlank x = false) →
      ds.dropWhile isBlank = ds := by
    intro ds hds
    cases ds with
    | nil => rfl
    | cons x ds => exact List.dropWhile_cons_of_neg (ne_true_of_eq_false (hds x rfl))
  unfold stripChars
  rw [hkeeps cs hhead, hkeeps cs.reverse (by rwa [List.head?_reverse]), List.reverse_reverse]

theorem stripChars_last {cs : List Char} {x : Char} (h : (stripChars cs).getLast? = some x) :
    isBlank x = false := by
  unfold stripChars at h
  rw [List.getLast?_reverse] at h
  have hhead := List.head?_dropWhile_not isBlank (cs.dropWhile isBlank).reverse
  rw [h] at hhead
  simpa using hhead

theorem stripChars_head {cs : List Char} {x : Char} (h : (stripChars cs).head? = some x) :
    isBlank x = false := by
  -- what is removed at the end leaves a front of what is left at the start
  obtain ⟨removed, hremoved⟩ := List.dropWhile_suffix isBlank (l := (cs.dropWhile isBlank).reverse)
  have hfront : cs.dropWhile isBlank = stripChars cs ++ removed.reverse := by
    unfold stripChars
    rw [← List.reverse_append, hremoved, List.reverse_reverse]
  have hhead := List.head?_dropWhile_not isBlank cs
  rw [hfront, List.head?_append, h, Option.some_or] at hhead
  simpa using hhead

theorem mem_of_mem_stripChars {cs : List Char} {x : Char} (h : x ∈ stripChars cs) : x ∈ cs := by
  unfold stripChars at h
  rw [List.mem_reverse] at h
  exact (List.dropWhile_subset _) (List.mem_reverse.1 ((List.dropWhile_subset _) h))

end ImageSizing.Text
