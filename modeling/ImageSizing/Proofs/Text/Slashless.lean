import Mathlib.Tactic.SplitIfs
import ImageSizing.Number
import ImageSizing.Text.Quoted

/-!
# Texts without a slash

A name is a part of a path as long as no slash is in it.  No slash is among the digits of a number,
and a text in quotes has one exactly if the text itself has one (`slashless_quote`).
-/

namespace ImageSizing

namespace Text

/-- No slash is in a text. -/
def Slashless (s : String) : Prop := '/' ∉ s.toList

instance (s : String) : Decidable (Slashless s) := inferInstanceAs (Decidable ('/' ∉ s.toList))

@[simp] theorem slashless_append {s t : String} :
    Slashless (s ++ t) ↔ Slashless s ∧ Slashless t := by
  simp [Slashless]

@[simp] theorem slashless_ofList {cs : List Char} : Slashless (String.ofList cs) ↔ '/' ∉ cs := by
  simp [Slashless]

theorem slashless_empty : Slashless "" := by decide

theorem slashless_intercalate {sep : String} (hsep : Slashless sep) {ts : List String} :
    Slashless (sep.intercalate ts) ↔ ∀ t ∈ ts, Slashless t := by
  induction ts with
  | nil => exact iff_of_true slashless_empty (List.forall_mem_nil _)
  | cons t ts ih =>
    cases ts with
    | nil => simp
    | cons u us =>
      rw [String.intercalate_cons_cons, slashless_append, slashless_append, ih,
        List.forall_mem_cons (a := t)]
      exact ⟨fun h => ⟨h.1.1, h.2⟩, fun h => ⟨⟨h.1, hsep⟩, h.2⟩⟩

/-- A part of a text without slashes has none. -/
theorem slash_not_mem_of_sublist {cs ds : List Char} (h : cs.Sublist ds) (hds : '/' ∉ ds) :
    '/' ∉ cs :=
  fun hmem => hds (h.subset hmem)

theorem slash_not_mem_append {cs ds : List Char} (hcs : '/' ∉ cs) (hds : '/' ∉ ds) :
    '/' ∉ cs ++ ds := by
  rw [List.mem_append, not_or]
  exact ⟨hcs, hds⟩

theorem slash_not_mem_replicate {c : Char} (hc : c ≠ '/') (n : Nat) : '/' ∉ List.replicate n c :=
  fun hmem => hc (List.eq_of_mem_replicate hmem).symm

/-! ## Characters -/

/-- A slash is the character of one code point only. -/
theorem eq_of_ofNat_eq_slash {n : Nat} (h : Char.ofNat n = '/') : n = '/'.toNat := by
  unfold Char.ofNat at h
  by_cases hvalid : n.isValidChar
  · rw [dif_pos hvalid] at h
    exact congrArg Char.toNat h
  · rw [dif_neg hvalid] at h
    cases h

theorem toUpper_ne_slash {c : Char} (hc : c ≠ '/') : c.toUpper ≠ '/' := by
  unfold Char.toUpper
  split
  · rename_i h
    intro hupper
    have hval := congrArg (fun d => d.val.toNat) hupper
    have hlow := UInt32.le_iff_toNat_le.1 h.1
    have hhigh := UInt32.le_iff_toNat_le.1 h.2
    have hdiff : ('A'.val - 'a'.val).toNat = 4294967264 := rfl
    have hslash : '/'.val.toNat = 47 := rfl
    have ha : 'a'.val.toNat = 97 := rfl
    have hz : 'z'.val.toNat = 122 := rfl
    dsimp only at hval
    rw [UInt32.toNat_add] at hval
    omega
  · exact hc

theorem slash_not_mem_toUpper {cs : List Char} (hcs : '/' ∉ cs) : '/' ∉ cs.map Char.toUpper := by
  rw [List.mem_map]
  rintro ⟨c, hc, hupper⟩
  refine toUpper_ne_slash ?_ hupper
  rintro rfl
  exact hcs hc

/-! ## Digits -/

theorem digitChar_ne_slash (n : Nat) : Nat.digitChar n ≠ '/' := by
  by_cases h : n < 16
  · exact (by decide : ∀ k < 16, Nat.digitChar k ≠ '/') n h
  · unfold Nat.digitChar
    iterate 16 rw [if_neg (by omega)]
    decide

theorem slash_not_mem_toDigitsCore (base fuel n : Nat) {cs : List Char} (hcs : '/' ∉ cs) :
    '/' ∉ Nat.toDigitsCore base fuel n cs := by
  induction fuel generalizing n cs with
  | zero => exact hcs
  | succ fuel ih =>
    have hnext : '/' ∉ Nat.digitChar (n % base) :: cs :=
      List.not_mem_cons_of_ne_of_not_mem (digitChar_ne_slash _).symm hcs
    unfold Nat.toDigitsCore
    dsimp only
    split
    · exact hnext
    · exact ih _ hnext

/-- Digits in any base are no slashes. -/
theorem slash_not_mem_toDigits (base n : Nat) : '/' ∉ Nat.toDigits base n :=
  slash_not_mem_toDigitsCore base (n + 1) n List.not_mem_nil

end Text

open Text

namespace Numeral

theorem slash_not_mem_digitsOf (n : Nat) : '/' ∉ digitsOf n := slash_not_mem_toDigits 10 n

theorem slash_not_mem_paddedDigits (width n : Nat) : '/' ∉ paddedDigits width n := by
  unfold paddedDigits
  exact slash_not_mem_append (slash_not_mem_replicate (by decide) _) (slash_not_mem_digitsOf n)

end Numeral

namespace Binary64

namespace Decimal

theorem slash_not_mem_ofGrid (count : Nat) (point : Int) (multiple : Nat) :
    '/' ∉ (ofGrid count point multiple).digits := by
  show '/' ∉ ((Numeral.digitsOf multiple).reverse.dropWhile (· == '0')).reverse
  rw [List.mem_reverse]
  refine slash_not_mem_of_sublist (List.dropWhile_sublist _) ?_
  rw [List.mem_reverse]
  exact Numeral.slash_not_mem_digitsOf multiple

theorem slash_not_mem_exponentText (e : Int) : '/' ∉ exponentText e := by
  unfold exponentText
  refine List.not_mem_cons_of_ne_of_not_mem ?_ (Numeral.slash_not_mem_paddedDigits 2 _)
  split <;> decide

theorem slash_not_mem_positional {d : Decimal} (h : '/' ∉ d.digits) :
    '/' ∉ d.positional.1 ∧ '/' ∉ d.positional.2 := by
  have hzeros : ∀ n, '/' ∉ List.replicate n '0' := slash_not_mem_replicate (by decide)
  unfold positional
  split
  · simp [h, hzeros]
  · refine ⟨slash_not_mem_append ?_ (hzeros _), slash_not_mem_of_sublist (List.drop_sublist _ _) h⟩
    exact slash_not_mem_of_sublist (List.take_sublist _ _) h

end Decimal

theorem slash_not_mem_significant (units count : Nat) : '/' ∉ (significant units count).digits := by
  unfold significant
  split
  · decide
  · dsimp only
    generalize pointOf units = point
    obtain ⟨n, d⟩ := onGrid units (Nat.min count digitBound) point
    exact Decimal.slash_not_mem_ofGrid _ _ _

/-- The numeral of the first grid that has one is on a grid. -/
theorem exists_ofGrid (grid : Nat → Option Nat) (point : Int) {counts : List Nat} {d : Decimal}
    (h : (counts.findSome? fun i => (grid i).map (Decimal.ofGrid (i + 1) point)) = some d) :
    ∃ count multiple, d = .ofGrid count point multiple := by
  obtain ⟨i, -, hi⟩ := List.exists_of_findSome?_eq_some h
  obtain ⟨multiple, -, rfl⟩ := Option.map_eq_some_iff.1 hi
  exact ⟨i + 1, multiple, rfl⟩

theorem shortest_cases (units : Nat) :
    shortest units = .zero ∨ shortest units = significant units 17 ∨
      ∃ count point multiple, shortest units = .ofGrid count point multiple := by
  unfold shortest
  split
  · rename_i h
    dsimp only
    cases hfind : (List.range 17).findSome? fun i =>
        (nearestOnGrid (.finite false units h.1) units (pointOf units) (i + 1)).map
          (Decimal.ofGrid (i + 1) (pointOf units)) with
    | none => exact .inr (.inl Option.getD_none)
    | some d =>
      obtain ⟨count, multiple, rfl⟩ := exists_ofGrid _ _ hfind
      exact .inr (.inr ⟨count, _, multiple, Option.getD_some⟩)
  · exact .inl rfl

theorem slash_not_mem_shortest (units : Nat) : '/' ∉ (shortest units).digits := by
  rcases shortest_cases units with h | h | ⟨count, point, multiple, h⟩
  · rw [h]
    decide
  · rw [h]
    exact slash_not_mem_significant units 17
  · rw [h]
    exact Decimal.slash_not_mem_ofGrid count point multiple

theorem slash_not_mem_fixedParts (units places : Nat) :
    '/' ∉ (fixedParts units places).1 ∧ '/' ∉ (fixedParts units places).2 := by
  have hdigits := Numeral.slash_not_mem_paddedDigits (Nat.min places placeBound + 1)
    (roundQuotient (units * Nat.pow 10 (Nat.min places placeBound)) unitsPerOne)
  refine ⟨slash_not_mem_of_sublist (List.take_sublist _ _) hdigits, ?_⟩
  exact slash_not_mem_append (slash_not_mem_of_sublist (List.drop_sublist _ _) hdigits)
    (slash_not_mem_replicate (by decide) _)

end Binary64

namespace Text

/-! ## Quotes -/

theorem slash_not_mem_hex (width n : Nat) : '/' ∉ hex width n := by
  unfold hex
  exact slash_not_mem_append (slash_not_mem_replicate (by decide) _) (slash_not_mem_toDigits 16 n)

theorem slash_not_mem_escapeCode (c : Char) : '/' ∉ escapeCode c := by
  unfold escapeCode
  split_ifs
  all_goals exact slash_not_mem_append (by decide) (slash_not_mem_hex _ _)

theorem quoteFor_ne_slash (cs : List Char) : quoteFor cs ≠ '/' := by
  unfold quoteFor
  split <;> decide

/-- A slash is shown as it is, and no other character is written with one. -/
theorem slash_mem_quoteChar {quote c : Char} (hquote : quote ≠ '/') :
    '/' ∈ quoteChar isPrintable quote c ↔ c = '/' := by
  constructor
  · intro h
    refine Decidable.byContradiction fun hc => ?_
    unfold quoteChar at h
    split_ifs at h
    · simp [Ne.symm hc] at h
    · exact absurd h (by decide)
    · exact absurd h (by decide)
    · exact absurd h (by decide)
    · exact hc (List.mem_singleton.1 h).symm
    · exact slash_not_mem_escapeCode c h
  · rintro rfl
    have hshown : isPrintable '/' = true := by decide +kernel
    unfold quoteChar
    rw [if_neg (by simp [hquote.symm]), if_neg (by decide), if_neg (by decide), if_neg (by decide),
      if_pos hshown]
    exact List.mem_singleton.2 rfl

theorem slash_mem_quote {s : String} : '/' ∈ (quote s).toList ↔ '/' ∈ s.toList := by
  have hquote := quoteFor_ne_slash s.toList
  unfold quote quoteWith
  rw [String.toList_ofList, List.mem_append, List.mem_cons, List.mem_singleton, List.mem_flatMap]
  constructor
  · rintro ((h | ⟨c, hc, h⟩) | h)
    · exact absurd h.symm hquote
    · obtain rfl := (slash_mem_quoteChar hquote).1 h
      exact hc
    · exact absurd h.symm hquote
  · intro h
    exact .inl (.inr ⟨'/', h, (slash_mem_quoteChar hquote).2 rfl⟩)

/-- A text in quotes has a slash exactly if the text has one. -/
@[simp] theorem slashless_quote {s : String} : Slashless (quote s) ↔ Slashless s :=
  not_congr slash_mem_quote

theorem slashless_asciiOnly {s : String} (h : Slashless s) : Slashless (asciiOnly s) := by
  unfold asciiOnly
  rw [slashless_ofList, List.mem_flatMap]
  rintro ⟨c, hc, hmem⟩
  split at hmem
  · obtain rfl := List.mem_singleton.1 hmem
    exact h hc
  · exact slash_not_mem_escapeCode c hmem

end Text

end ImageSizing
