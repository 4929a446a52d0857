import ImageSizing.Dimension.Grammar

/-!
# How numerals are spelled

A numeral is spelled by a sign, where signs are allowed, and digits, perhaps with a point
among them or in front of them (`Writes`).  The scanners of a grammar take exactly that: what
they take off a text is spelled there (`takeNumeral?_eq_some`), and a spelled numeral is taken
whole unless what follows could go on with it (`takeNumeral?_append`).
-/

namespace ImageSizing.Grammar

/-- A text that is a sign, and whether it is the negative one; no sign is one, too. -/
inductive IsSign (signed : Bool) : List Char → Bool → Prop
  | none : IsSign signed [] false
  | minus (allowed : signed = true) : IsSign signed ['-'] true
  | plus (allowed : signed = true) : IsSign signed ['+'] false

/-- A text that writes a numeral, without a point or with digits after its point. -/
inductive Writes (signed : Bool) : List Char → Numeral.Signed → Prop
  | whole {sign ds : List Char} {negative : Bool} (sign_ok : IsSign signed sign negative)
      (digits : ∀ c ∈ ds, c.isDigit = true) (ne_nil : ds ≠ []) :
      Writes signed (sign ++ ds) ⟨negative, ds, []⟩
  | point {sign ws ps : List Char} {negative : Bool} (sign_ok : IsSign signed sign negative)
      (digits : ∀ c ∈ ws, c.isDigit = true) (after : ∀ c ∈ ps, c.isDigit = true)
      (ne_nil : ps ≠ []) : Writes signed (sign ++ (ws ++ '.' :: ps)) ⟨negative, ws, ps⟩

/-- A text that does not go on with digits or a point. -/
def Ends (rest : List Char) : Prop := ∀ c ∈ rest.head?, c.isDigit = false ∧ c ≠ '.'

theorem ends_nil : Ends [] := nofun

theorem ends_cons {c : Char} {rest : List Char} :
    Ends (c :: rest) ↔ c.isDigit = false ∧ c ≠ '.' := by
  constructor
  · intro h
    exact h c rfl
  · rintro h d ⟨⟩
    exact h

instance : (rest : List Char) → Decidable (Ends rest)
  | [] => .isTrue ends_nil
  | _ :: _ => decidable_of_iff' _ ends_cons

variable {signed : Bool} {cs rest num : List Char} {t : Numeral.Signed}

/-! ## Digits and signs -/

theorem isDigit_of_mem_takeWhile {c : Char} (h : c ∈ cs.takeWhile Char.isDigit) : c.isDigit = true :=
  List.all_eq_true.1 List.all_takeWhile c h

/-- Digits are taken up to the first character that is none. -/
theorem takeWhile_digits {ds : List Char} (hds : ∀ c ∈ ds, c.isDigit = true)
    (hrest : ∀ c ∈ rest.head?, c.isDigit = false) :
    (ds ++ rest).takeWhile Char.isDigit = ds ∧ (ds ++ rest).dropWhile Char.isDigit = rest := by
  rw [List.takeWhile_append_of_pos hds, List.dropWhile_append_of_pos hds]
  cases rest with
  | nil => exact ⟨List.append_nil ds, rfl⟩
  | cons c rest =>
    have hc : ¬c.isDigit = true := Bool.eq_false_iff.1 (hrest c rfl)
    rw [List.takeWhile_cons_of_neg hc, List.dropWhile_cons_of_neg hc]
    exact ⟨List.append_nil ds, rfl⟩

theorem takeSign_eq {negative : Bool} (h : takeSign signed cs = (negative, rest)) :
    ∃ sign, IsSign signed sign negative ∧ cs = sign ++ rest := by
  unfold takeSign at h
  split at h
  · cases signed with
    | false =>
      cases h
      exact ⟨[], .none, rfl⟩
    | true =>
      cases h
      exact ⟨['-'], .minus rfl, rfl⟩
  · cases signed with
    | false =>
      cases h
      exact ⟨[], .none, rfl⟩
    | true =>
      cases h
      exact ⟨['+'], .plus rfl, rfl⟩
  · cases h
    exact ⟨[], .none, rfl⟩

/-- A sign is taken off a text that has no other sign behind it. -/
theorem takeSign_append {sign : List Char} {negative : Bool} (h : IsSign signed sign negative)
    {c : Char} (hc : c.isDigit = true ∨ c = '.') (body : List Char) :
    takeSign signed (sign ++ c :: body) = (negative, c :: body) := by
  cases h with
  | none =>
    show takeSign signed (c :: body) = _
    unfold takeSign
    split
    · rename_i heq
      obtain ⟨rfl, -⟩ := List.cons.inj heq
      exact absurd hc (by decide)
    · rename_i heq
      obtain ⟨rfl, -⟩ := List.cons.inj heq
      exact absurd hc (by decide)
    · rfl
  | minus allowed =>
    rw [allowed]
    rfl
  | plus allowed =>
    rw [allowed]
    rfl

/-! ## Numerals -/

theorem takeWhole?_eq_some (h : takeWhole? signed cs = some (t, rest)) :
    ∃ num, Writes signed num t ∧ t.part = [] ∧ cs = num ++ rest := by
  unfold takeWhole? at h
  cases htake : takeSign signed cs with
  | mk negative body =>
    rw [htake] at h
    obtain ⟨sign, hsign, rfl⟩ := takeSign_eq htake
    dsimp only at h
    split at h
    · cases h
    · rename_i hne
      cases h
      refine ⟨_, .whole hsign (fun c => isDigit_of_mem_takeWhile) ?_, rfl, ?_⟩
      · simpa using hne
      · rw [List.append_assoc, List.takeWhile_append_dropWhile]

theorem takeNumeral?_eq_some (h : takeNumeral? signed cs = some (t, rest)) :
    ∃ num, Writes signed num t ∧ cs = num ++ rest := by
  unfold takeNumeral? at h
  cases htake : takeSign signed cs with
  | mk negative body =>
    rw [htake] at h
    obtain ⟨sign, hsign, rfl⟩ := takeSign_eq htake
    have hbody := List.takeWhile_append_dropWhile (p := Char.isDigit) (l := body)
    dsimp only at h
    split at h
    · rename_i after hrest
      have hafter := List.takeWhile_append_dropWhile (p := Char.isDigit) (l := after)
      split at h
      · cases h
      · rename_i hne
        cases h
        refine ⟨_, .point hsign (fun c => isDigit_of_mem_takeWhile)
          (fun c => isDigit_of_mem_takeWhile) (by simpa using hne), ?_⟩
        rw [List.append_assoc, List.append_assoc, List.cons_append, hafter, ← hrest, hbody]
    · split at h
      · cases h
      · rename_i hne
        cases h
        refine ⟨_, .whole hsign (fun c => isDigit_of_mem_takeWhile) (by simpa using hne), ?_⟩
        rw [List.append_assoc, hbody]

theorem takeWhole?_append (h : Writes signed num t) (hpart : t.part = [])
    (hrest : ∀ c ∈ rest.head?, c.isDigit = false) :
    takeWhole? signed (num ++ rest) = some (t, rest) := by
  cases h with
  | point sign_ok digits after ne_nil => exact absurd hpart ne_nil
  | @whole sign ds negative sign_ok digits ne_nil =>
    obtain ⟨c, ds, rfl⟩ := List.exists_cons_of_ne_nil ne_nil
    obtain ⟨htake, hdrop⟩ := takeWhile_digits digits hrest
    unfold takeWhole?
    rw [List.append_assoc, List.cons_append, takeSign_append sign_ok (.inl (digits c List.mem_cons_self))]
    dsimp only
    rw [← List.cons_append, htake, hdrop]
    rfl

theorem takeNumeral?_append (h : Writes signed num t) (hrest : Ends rest) :
    takeNumeral? signed (num ++ rest) = some (t, rest) := by
  have hdigit : ∀ c ∈ rest.head?, c.isDigit = false := fun c hc => (hrest c hc).1
  cases h with
  | @whole sign ds negative sign_ok digits ne_nil =>
    obtain ⟨c, ds, rfl⟩ := List.exists_cons_of_ne_nil ne_nil
    obtain ⟨htake, hdrop⟩ := takeWhile_digits digits hdigit
    unfold takeNumeral?
    rw [List.append_assoc, List.cons_append, takeSign_append sign_ok (.inl (digits c List.mem_cons_self))]
    dsimp only
    rw [← List.cons_append, htake, hdrop]
    split
    · exact absurd rfl (hrest '.' rfl).2
    · rfl
  | @point sign ws ps negative sign_ok digits after ne_nil =>
    have hpoint : ∀ c ∈ ('.' :: ps ++ rest).head?, c.isDigit = false := by
      intro c hc
      cases hc
      rfl
    obtain ⟨htake, hdrop⟩ := takeWhile_digits digits hpoint
    obtain ⟨htakeAfter, hdropAfter⟩ := takeWhile_digits after hdigit
    have hsign : takeSign signed (sign ++ (ws ++ ('.' :: ps ++ rest))) =
        (negative, ws ++ ('.' :: ps ++ rest)) := by
      cases ws with
      | nil => exact takeSign_append sign_ok (.inr rfl) _
      | cons c ws => exact takeSign_append sign_ok (.inl (digits c List.mem_cons_self)) _
    unfold takeNumeral?
    rw [List.append_assoc, List.append_assoc, hsign]
    dsimp only
    rw [htake, hdrop]
    show (if ((ps ++ rest).takeWhile Char.isDigit).isEmpty = true then none
      else some ((⟨negative, ws, (ps ++ rest).takeWhile Char.isDigit⟩ : Numeral.Signed),
        (ps ++ rest).dropWhile Char.isDigit)) = _
    rw [htakeAfter, hdropAfter, if_neg (by simpa using ne_nil)]

/-! ## Suffixes -/

variable {suffixes : List String}

theorem hasSuffix_iff {rest : List Char} :
    hasSuffix suffixes rest = true ↔ ∃ suffix ∈ suffixes, rest = suffix.toList := by
  unfold hasSuffix
  rw [List.contains_iff_mem]
  constructor
  · intro h
    exact ⟨_, h, String.toList_ofList.symm⟩
  · rintro ⟨suffix, hmem, rfl⟩
    rwa [String.ofList_toList]

/-- What a scanner for a numeral and a suffix accepts. -/
theorem scan_eq_some_iff {scan : List Char → Option (Numeral.Signed × List Char)} :
    ((scan cs).bind fun t => if hasSuffix suffixes t.2 then some t.1 else none) = some t ↔
      ∃ suffix ∈ suffixes, scan cs = some (t, suffix.toList) := by
  rw [Option.bind_eq_some_iff]
  constructor
  · rintro ⟨⟨t', rest⟩, hscan, h⟩
    dsimp only at h
    split at h
    · rename_i hsuffix
      obtain ⟨suffix, hmem, rfl⟩ := hasSuffix_iff.1 hsuffix
      cases h
      exact ⟨suffix, hmem, hscan⟩
    · cases h
  · rintro ⟨suffix, hmem, hscan⟩
    exact ⟨_, hscan, if_pos (hasSuffix_iff.2 ⟨suffix, hmem, rfl⟩)⟩

end ImageSizing.Grammar
