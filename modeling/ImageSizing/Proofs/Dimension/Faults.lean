import ImageSizing.Proofs.Dimension.Accepted

/-!
# What cannot be read

Numbers, lists, mappings and all other values but texts can be read, and so can most texts:
what is no token is an invalid dimension, and so is a token whose number has no double.  One
guard is missing.  The digits of a pixel token are looked at as a double first, which takes
any number of them, and then read as an integer, which takes `Numeral.digitLimit` of them.
Leading zeros make the difference: only with them have so many digits a double at all.

    read g v = .error f ↔ v is a pixel token with a double and too many digits     (read_faults)
-/

namespace ImageSizing.Dimension

open Numeral

variable {g : Grammar} {cs : List Char} {s : String} {f : Fault}

/-! ## Texts -/

/-- The digits of a pixel numeral are taken for a double before they are counted. -/
theorem ofPixelNumeral_eq_error {t : Numeral.Signed} :
    ofPixelNumeral t = .error f ↔ t.toBinary64.isFinite = true ∧ digitLimit < t.whole.length ∧
      f = .numeralTooLong t.whole.length := by
  unfold ofPixelNumeral
  by_cases hfin : t.toBinary64.isFinite = true
  · rw [if_pos hfin]
    by_cases hshort : t.whole.length ≤ digitLimit
    · rw [if_pos hshort]
      exact iff_of_false nofun fun h => Nat.not_lt.2 hshort h.2.1
    · rw [if_neg hshort]
      constructor
      · rintro ⟨⟩
        exact ⟨hfin, Nat.lt_of_not_le hshort, rfl⟩
      · rintro ⟨-, -, rfl⟩
        rfl
  · rw [if_neg hfin]
    exact iff_of_false nofun fun h => hfin h.1

/-- Factors and percentages have no limit of digits. -/
theorem readToken_eq_error :
    readToken g cs = .error f ↔ ∃ t, g.pixel? cs = some t ∧ ofPixelNumeral t = .error f := by
  constructor
  · intro h
    rcases readToken_cases g cs with ⟨t, hpixel, hread⟩ | ⟨-, ⟨t, -, hread⟩ | ⟨t, -, hread⟩ | hread⟩
    · exact ⟨t, hpixel, hread.symm.trans h⟩
    · cases hread.symm.trans h
    · cases hread.symm.trans h
    · cases hread.symm.trans h
  · rintro ⟨t, hpixel, h⟩
    rw [readToken_of_pixel? hpixel, h]

theorem readText_eq_error :
    readText g s = .error f ↔ ∃ t, g.pixel? s.toList = some t ∧ ofPixelNumeral t = .error f := by
  by_cases hs : s = ""
  · subst hs
    exact iff_of_false nofun (by rintro ⟨t, ⟨⟩, -⟩)
  · rw [readText_of_ne_empty g hs]
    exact readToken_eq_error

/-- A pixel token that writes an integer with a double, in more digits than are read. -/
theorem exists_overlong_iff (hg : g.Unambiguous) :
    (∃ t, g.pixel? cs = some t ∧ ofPixelNumeral t = .error f) ↔
      ∃ num, Grammar.IsToken (Pattern.whole g.signed) g.pixelSuffixes num cs ∧
        Numeral.magnitude num < (2 ^ 1024 - 2 ^ 970 : ℕ) ∧
        digitLimit < (Grammar.leadingDigits g.signed cs).length ∧
        f = .numeralTooLong (Grammar.leadingDigits g.signed cs).length := by
  have hbound : ∀ {num t}, Grammar.Writes g.signed num t → t.part = [] →
      (t.toBinary64.isFinite = true ↔ Numeral.magnitude num < (2 ^ 1024 - 2 ^ 970 : ℕ)) := by
    intro num t hwrites hpart
    rw [isFinite_toBinary64_iff hpart, Signed.natAbs_toInt, hwrites.magnitude, hpart, List.append_nil,
      List.length_nil, Nat.pow_zero, Nat.cast_one, div_one, Nat.cast_lt]
  constructor
  · rintro ⟨t, hpixel, herror⟩
    obtain ⟨num, htoken, hwrites⟩ := (Grammar.pixel?_eq_some_iff hg).1 hpixel
    obtain ⟨hfin, hlong, rfl⟩ := ofPixelNumeral_eq_error.1 herror
    rw [Grammar.whole_of_pixel? hpixel] at hlong ⊢
    exact ⟨num, htoken, (hbound hwrites (part_of_pixel? hpixel)).1 hfin, hlong, rfl⟩
  · rintro ⟨num, htoken, hsmall, hlong, rfl⟩
    obtain ⟨t, hwrites, hpart⟩ := Pattern.mem_whole.1 htoken.1
    have hpixel := (Grammar.pixel?_eq_some_iff hg).2 ⟨num, htoken, hwrites⟩
    rw [← Grammar.whole_of_pixel? hpixel] at hlong ⊢
    exact ⟨t, hpixel, ofPixelNumeral_eq_error.2 ⟨(hbound hwrites hpart).2 hsmall, hlong, rfl⟩⟩

/-! ## Other values -/

theorem printable_of_isFinite {v : Number} (h : v.isFinite = true) : v.printable = true := by
  cases v with
  | float x => rfl
  | int n =>
    have hbelow := Number.isFinite_int_iff.1 h
    exact printable_iff.2 (Nat.lt_of_lt_of_le hbelow doubles_le_digitLimit)

/-- Any number can be read: if it has a double, then its token is short. -/
theorem readNumber_ne_error (v : Number) : readNumber g v ≠ .error f := by
  by_cases hfin : v.isFinite = true
  · obtain ⟨d, hd⟩ := exists_readNumber g (printable_of_isFinite hfin)
    rw [hd]
    exact nofun
  · unfold readNumber
    rw [if_neg hfin]
    exact nofun

theorem read_eq_error {v : Value} :
    read g v = .error f ↔ ∃ s, v = .str s ∧ readText g s = .error f := by
  have hother : read g v ≠ .error f → (∀ s, v ≠ .str s) →
      (read g v = .error f ↔ ∃ s, v = .str s ∧ readText g s = .error f) := by
    intro hread hv
    refine iff_of_false hread ?_
    rintro ⟨s, hs, -⟩
    exact hv s hs
  cases v with
  | str s => exact ⟨fun h => ⟨s, rfl, h⟩, by rintro ⟨_, ⟨⟩, h⟩; exact h⟩
  | int n => exact hother (readNumber_ne_error _) nofun
  | float x => exact hother (readNumber_ne_error _) nofun
  | _ => exact hother nofun nofun

/-- A zero in more digits than are read cannot be read. -/
theorem read_zeros {n : ℕ} (h : digitLimit < n) :
    read .standard (.str (String.ofList (List.replicate n '0'))) = .error (.numeralTooLong n) := by
  have hlength : (List.replicate n '0').length = n := List.length_replicate
  have hdigits : ∀ c ∈ List.replicate n '0', c.isDigit = true := by
    intro c hc
    rw [List.eq_of_mem_replicate hc]
    rfl
  have hwrites : Grammar.Writes false (List.replicate n '0') ⟨false, List.replicate n '0', []⟩ :=
    .whole .none hdigits (List.ne_nil_of_length_pos (by omega))
  have hpixel : Grammar.standard.pixel? (List.replicate n '0') = some ⟨false, List.replicate n '0', []⟩ := by
    have htake := Grammar.takeWhole?_append hwrites rfl fun c hc => (Grammar.ends_nil c hc).1
    rw [List.append_nil] at htake
    show (Grammar.takeWhole? false (List.replicate n '0')).bind _ = _
    rw [htake]
    rfl
  have hfinite : (Signed.toBinary64 ⟨false, List.replicate n '0', []⟩).isFinite = true := by
    rw [isFinite_toBinary64_iff rfl, Signed.natAbs_toInt]
    show readDigits (List.replicate n '0') < _
    rw [← List.append_nil (List.replicate n '0'), readDigits_zeros]
    decide +kernel
  refine read_eq_error.2 ⟨_, rfl, readText_eq_error.2 ⟨_, by rw [String.toList_ofList]; exact hpixel, ?_⟩⟩
  exact ofPixelNumeral_eq_error.2 ⟨hfinite, hlength.symm ▸ h, by rw [hlength]⟩

/-- A finite dimension that is neither pixels nor a factor has no value, and so no number. -/
theorem Finite.isConcrete_iff {d : Dimension} (h : d.Finite) :
    (d.isConcrete = true ↔ ∃ x : Number, d.value = .ofNumber x ∧ x.isFinite = true) ∧
      (d.isConcrete = false → d.value = .nothing) := by
  have hnone : ¬∃ x : Number, Value.nothing = .ofNumber x ∧ x.isFinite = true := by
    rintro ⟨x, hx, -⟩
    cases x <;> cases hx
  obtain ⟨unit, value⟩ := d
  cases unit with
  | pixel => exact ⟨iff_of_true rfl h, nofun⟩
  | factor => exact ⟨iff_of_true rfl h, nofun⟩
  | unspecified =>
    obtain rfl : value = .nothing := h
    exact ⟨iff_of_false nofun hnone, fun _ => rfl⟩
  | invalid =>
    obtain rfl : value = .nothing := h
    exact ⟨iff_of_false nofun hnone, fun _ => rfl⟩

/-- The one fault of reading a value is a pixel token that writes an integer with a double, but
in more digits than are read, so with leading zeros.  Anything else is read, and what is read,
ready-made dimensions aside, is pixels or a factor with a finite number, or has no value. -/
theorem read_faults {g : Grammar} (hg : g ∈ Grammar.all) (v : Value) :
    (∀ f, read g v = .error f ↔ ∃ s num, v = .str s ∧
      Grammar.IsToken (Pattern.whole g.signed) g.pixelSuffixes num s.toList ∧
      Numeral.magnitude num < (2 ^ 1024 - 2 ^ 970 : ℕ) ∧
      digitLimit < (Grammar.leadingDigits g.signed s.toList).length ∧
      f = .numeralTooLong (Grammar.leadingDigits g.signed s.toList).length) ∧
    ∀ d, read g v = .ok d → isReady v = false →
      (d.isConcrete = true ↔ ∃ x : Number, d.value = .ofNumber x ∧ x.isFinite = true) ∧
      (d.isConcrete = false → d.value = .nothing) := by
  have hunambiguous := Grammar.unambiguous_of_mem_all hg
  refine ⟨?_, ?_⟩
  · intro f
    rw [read_eq_error]
    simp only [readText_eq_error, exists_overlong_iff hunambiguous, exists_and_left]
  · intro d hd hready
    exact (finite_of_read hready hd).isConcrete_iff

/-- A zero of 4301 digits. -/
theorem read_faults_zeros :
    Grammar.standard ∈ Grammar.all ∧
      read .standard (.str (String.ofList (List.replicate 4301 '0'))) = .error (.numeralTooLong 4301) := by
  have hg : Grammar.standard ∈ Grammar.all := by decide
  have hdigits : ∀ c ∈ List.replicate 4301 '0', c.isDigit = true := by
    intro c hc
    rw [List.eq_of_mem_replicate hc]
    rfl
  have hwrites : Grammar.Writes false (List.replicate 4301 '0') ⟨false, List.replicate 4301 '0', []⟩ :=
    .whole .none hdigits (List.cons_ne_nil _ _)
  have htoken : Grammar.IsToken (Pattern.whole false) ["", "px"] (List.replicate 4301 '0')
      (List.replicate 4301 '0') :=
    ⟨Pattern.mem_whole.2 ⟨_, hwrites, rfl⟩, "", by decide, (List.append_nil _).symm⟩
  have hzero : Numeral.magnitude (List.replicate 4301 '0') < (2 ^ 1024 - 2 ^ 970 : ℕ) := by
    rw [hwrites.magnitude, List.append_nil, ← List.append_nil (List.replicate 4301 '0'),
      readDigits_zeros]
    decide +kernel
  have hrun : (Grammar.leadingDigits false (List.replicate 4301 '0')).length = 4301 := by
    show ((List.replicate 4301 '0').takeWhile Char.isDigit).length = 4301
    rw [List.takeWhile_eq_self_iff.2 hdigits, List.length_replicate]
  refine ⟨hg, ((read_faults hg _).1 _).2 ⟨_, List.replicate 4301 '0', rfl, ?_⟩⟩
  rw [String.toList_ofList]
  refine ⟨htoken, hzero, ?_, ?_⟩
  · show digitLimit < (Grammar.leadingDigits false (List.replicate 4301 '0')).length
    rw [hrun]
    decide
  · show _ = Fault.numeralTooLong (Grammar.leadingDigits false (List.replicate 4301 '0')).length
    rw [hrun]

end ImageSizing.Dimension
