import ImageSizing.Dimension.Reading
import ImageSizing.Proofs.Binary64.Overflow
import ImageSizing.Proofs.Value.Data

/-!
# Tokens that can be read

The one fault of reading a dimension is a pixel numeral of too many digits, and what counts
is the run of digits with which a token begins (`exists_readToken`).  The texts of numbers
begin with few digits: those of a whole number are as many as the number has, a whole double
lies below 2¹⁰²⁴, and any other double is written with a point or an exponent after at most
sixteen digits.  So data can always be read:

    v.IsData → ∃ d, read g v = .ok d     (exists_read)
-/

namespace ImageSizing

namespace Grammar

/-- The digits with which a token begins, after its sign. -/
def leadingDigits (signed : Bool) (cs : List Char) : List Char :=
  (takeSign signed cs).2.takeWhile Char.isDigit

/-- A sign is at most the first character. -/
theorem takeSign_suffix (signed : Bool) (cs : List Char) : (takeSign signed cs).2 <:+ cs := by
  unfold takeSign
  split
  · cases signed
    · exact List.suffix_refl _
    · exact List.suffix_cons _ _
  · cases signed
    · exact List.suffix_refl _
    · exact List.suffix_cons _ _
  · exact List.suffix_refl _

theorem leadingDigits_infix (signed : Bool) (cs : List Char) : leadingDigits signed cs <:+: cs :=
  (List.takeWhile_prefix _).isInfix.trans (takeSign_suffix signed cs).isInfix

theorem isDigit_of_mem_leadingDigits {signed : Bool} {cs : List Char} {c : Char}
    (h : c ∈ leadingDigits signed cs) : c.isDigit = true :=
  List.all_eq_true.1 List.all_takeWhile c h

theorem length_takeWhile_append_le {p : Char → Bool} {c : Char} (hc : p c = false)
    (xs ys : List Char) : ((xs ++ c :: ys).takeWhile p).length ≤ xs.length := by
  induction xs with
  | nil => simp [hc]
  | cons x xs ih =>
    rw [List.cons_append, List.takeWhile_cons]
    split
    · simpa using ih
    · simp

/-- The digits at the beginning end before a character that is neither a digit nor a sign. -/
theorem length_leadingDigits_append {c : Char} (hdigit : c.isDigit = false) (hminus : c ≠ '-')
    (hplus : c ≠ '+') (signed : Bool) (xs ys : List Char) :
    (leadingDigits signed (xs ++ c :: ys)).length ≤ xs.length := by
  have hafter : ∀ zs : List Char, zs.length ≤ xs.length →
      ((zs ++ c :: ys).takeWhile Char.isDigit).length ≤ xs.length :=
    fun zs hle => Nat.le_trans (length_takeWhile_append_le hdigit zs ys) hle
  unfold leadingDigits takeSign
  cases xs with
  | nil =>
    split
    · rename_i heq
      exact absurd (List.cons.inj heq).1 hminus
    · rename_i heq
      exact absurd (List.cons.inj heq).1 hplus
    · exact hafter [] (Nat.le_refl _)
  | cons x xs =>
    split
    · rename_i rest heq
      obtain ⟨rfl, rfl⟩ := List.cons.inj heq
      cases signed
      · exact hafter ('-' :: xs) (Nat.le_refl _)
      · exact hafter xs (Nat.le_succ _)
    · rename_i rest heq
      obtain ⟨rfl, rfl⟩ := List.cons.inj heq
      cases signed
      · exact hafter ('+' :: xs) (Nat.le_refl _)
      · exact hafter xs (Nat.le_succ _)
    · exact hafter (x :: xs) (Nat.le_refl _)

theorem length_leadingDigits_minus (signed : Bool) (cs : List Char) :
    (leadingDigits signed ('-' :: cs)).length ≤ (cs.takeWhile Char.isDigit).length := by
  cases signed
  · exact Nat.zero_le _
  · exact Nat.le_refl _

/-- A pixel numeral is the digits with which its token begins. -/
theorem whole_of_pixel? {g : Grammar} {cs : List Char} {t : Numeral.Signed}
    (h : g.pixel? cs = some t) : t.whole = leadingDigits g.signed cs := by
  unfold pixel? at h
  obtain ⟨⟨t', rest⟩, htake, h⟩ := Option.bind_eq_some_iff.1 h
  unfold takeWhole? at htake
  dsimp only at htake h
  split at htake
  · cases htake
  · cases htake
    split at h
    · cases h
      rfl
    · cases h

end Grammar

/-! ## Texts of numbers -/

namespace Numeral

theorem printable_iff {n : Int} : printable n = true ↔ n.natAbs < Nat.pow 10 digitLimit := by
  unfold printable
  exact decide_eq_true_iff

theorem length_digitsOf_le {n k : Nat} (hk : 0 < k) (h : n < Nat.pow 10 k) :
    (digitsOf n).length ≤ k :=
  (Nat.length_toDigits_le_iff (by decide) hk).2 h

theorem length_leadingDigits_text {n : Int} (h : printable n = true) (signed : Bool) :
    (Grammar.leadingDigits signed (text n).toList).length ≤ digitLimit := by
  have hdigits := length_digitsOf_le (by decide) (printable_iff.1 h)
  unfold text
  rw [String.toList_ofList]
  split
  · calc _ ≤ ((digitsOf n.natAbs).takeWhile Char.isDigit).length :=
          Grammar.length_leadingDigits_minus signed _
      _ ≤ (digitsOf n.natAbs).length := (List.takeWhile_prefix _).length_le
      _ ≤ digitLimit := hdigits
  · exact Nat.le_trans (Grammar.leadingDigits_infix signed _).length_le hdigits

end Numeral

namespace Binary64

theorem unitsLimit_le : unitsLimit ≤ Nat.pow 10 Numeral.digitLimit * unitsPerOne := by decide +kernel

/-- The whole part of a double is short. -/
theorem printable_truncate {x : Binary64} {n : Int} (h : x.truncate? = some n) :
    Numeral.printable n = true := by
  cases x with
  | nan => cases h
  | infinite s => cases h
  | finite s u fits =>
    have hunits : n.natAbs = u / unitsPerOne := by
      cases h
      rw [Int.natAbs_tdiv]
      cases s
      · rfl
      · show (-(u : Int)).natAbs / unitsPerOne = u / unitsPerOne
        rw [Int.natAbs_neg, Int.natAbs_natCast]
    rw [Numeral.printable_iff, hunits, Nat.div_lt_iff_lt_mul unitsPerOne_pos]
    exact Nat.lt_of_lt_of_le fits.1 unitsLimit_le

theorem length_positional_whole (d : Decimal) (h : d.point ≤ 16) : d.positional.1.length ≤ 16 := by
  unfold Decimal.positional
  split
  · show 1 ≤ 16
    decide
  · show (d.digits.take d.point.toNat ++
      List.replicate (d.point.toNat - d.digits.length) '0').length ≤ 16
    rw [List.length_append, List.length_take, List.length_replicate]
    omega

/-- A finite double is written with few characters before its point or exponent. -/
theorem exists_text_finite (negative : Bool) {units : Nat} (fits : Representable units) :
    ∃ xs c ys, xs.length ≤ 16 ∧ (c = '.' ∨ c = 'e') ∧ (finite negative units fits).text =
      String.ofList (if negative then '-' :: (xs ++ c :: ys) else xs ++ c :: ys) := by
  unfold text
  dsimp only
  by_cases hpoint : -4 < (shortest units).point ∧ (shortest units).point ≤ 16
  · rw [if_pos hpoint]
    exact ⟨_, '.', _, length_positional_whole _ hpoint.2, .inl rfl, rfl⟩
  · rw [if_neg hpoint]
    have htake : ((shortest units).digits.take 1).length ≤ 16 :=
      Nat.le_trans (List.length_take_le 1 _) (by decide)
    by_cases hone : (shortest units).digits.length ≤ 1
    · rw [if_pos hone, List.append_nil]
      exact ⟨_, 'e', _, htake, .inr rfl, rfl⟩
    · rw [if_neg hone, List.append_assoc, List.cons_append]
      exact ⟨_, '.', _, htake, .inl rfl, rfl⟩

/-- The text of a double begins with few digits. -/
theorem length_leadingDigits_text (x : Binary64) (signed : Bool) :
    (Grammar.leadingDigits signed x.text.toList).length ≤ Numeral.digitLimit := by
  cases x with
  | nan => cases signed <;> decide
  | infinite negative => cases signed <;> cases negative <;> decide
  | finite negative units fits =>
    obtain ⟨xs, c, ys, hlength, hc, htext⟩ := exists_text_finite negative fits
    have hdigit : c.isDigit = false := by rcases hc with rfl | rfl <;> rfl
    have hminus : c ≠ '-' := by rcases hc with rfl | rfl <;> decide
    have hplus : c ≠ '+' := by rcases hc with rfl | rfl <;> decide
    rw [htext, String.toList_ofList]
    refine Nat.le_trans ?_ (Nat.le_trans hlength (by decide))
    cases negative
    · exact Grammar.length_leadingDigits_append hdigit hminus hplus signed xs ys
    · exact Nat.le_trans (Grammar.length_leadingDigits_minus signed _)
        (Grammar.length_takeWhile_append_le hdigit xs ys)

end Binary64

namespace Dimension

/-! ## Reading -/

theorem exists_ofPixelNumeral {t : Numeral.Signed} (h : t.whole.length ≤ Numeral.digitLimit) :
    ∃ d, ofPixelNumeral t = .ok d := by
  unfold ofPixelNumeral
  rw [if_pos h]
  split <;> exact ⟨_, rfl⟩

/-- A token can be read if it begins with few digits. -/
theorem exists_readToken {g : Grammar} {cs : List Char}
    (h : (Grammar.leadingDigits g.signed cs).length ≤ Numeral.digitLimit) :
    ∃ d, readToken g cs = .ok d := by
  rcases readToken_cases g cs with ⟨t, hpixel, hread⟩ | ⟨-, ⟨t, -, hread⟩ | ⟨t, -, hread⟩ | hread⟩
  · rw [hread]
    exact exists_ofPixelNumeral (by rwa [Grammar.whole_of_pixel? hpixel])
  · exact ⟨_, hread⟩
  · exact ⟨_, hread⟩
  · exact ⟨_, hread⟩

theorem exists_readText {g : Grammar} {s : String}
    (h : (Grammar.leadingDigits g.signed s.toList).length ≤ Numeral.digitLimit) :
    ∃ d, readText g s = .ok d := by
  unfold readText
  split
  · exact ⟨_, rfl⟩
  · exact exists_readToken h

/-- The token of a number begins with few digits. -/
theorem length_leadingDigits_tokenOf {v : Number} (h : v.printable = true) (signed : Bool) :
    (Grammar.leadingDigits signed (tokenOf v).toList).length ≤ Numeral.digitLimit := by
  cases v with
  | int n => exact Numeral.length_leadingDigits_text h signed
  | float x =>
    unfold tokenOf
    dsimp only
    split
    · rename_i n hn
      exact Numeral.length_leadingDigits_text (Binary64.printable_truncate hn) signed
    · exact Binary64.length_leadingDigits_text x signed

theorem exists_readNumber {v : Number} (g : Grammar) (h : v.printable = true) :
    ∃ d, readNumber g v = .ok d := by
  unfold readNumber
  split
  · exact exists_readText (length_leadingDigits_tokenOf h g.signed)
  · exact ⟨_, rfl⟩

/-- Data can be read as a dimension. -/
theorem exists_read (g : Grammar) {v : Value} (h : v.IsData) : ∃ d, read g v = .ok d := by
  cases v with
  | str s =>
    exact exists_readText (h _ (Grammar.leadingDigits_infix g.signed s.toList)
      fun _ hc => Grammar.isDigit_of_mem_leadingDigits hc)
  | int n => exact exists_readNumber g h
  | float x => exact exists_readNumber g rfl
  | nothing | bool _ | list _ | tuple _ | map _ => exact ⟨_, rfl⟩
  | dim _ _ | real _ | pixels _ | spec _ _ _ _ _ | step _ | callable _ | foreign => exact h.elim

end Dimension

end ImageSizing
