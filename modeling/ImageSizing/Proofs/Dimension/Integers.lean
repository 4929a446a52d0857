import ImageSizing.Proofs.Dimension.Readable
import ImageSizing.Proofs.Dimension.Spelling
import ImageSizing.Proofs.Dimension.Tokens

/-!
# Whole numbers as dimensions

A whole number reads like its own decimal text.  Where a grammar takes bare digits as pixels,
as all but the loose one do, the text is one run of digits with nothing behind it, and the
digits read back to the number that they were written from:

    read g (.int n) = .ok (.pixel (.int n))     (read_natCast)
-/

namespace ImageSizing

namespace Numeral

/-- A numeral reads back. -/
theorem readDigits_digitsOf (n : Nat) : readDigits (digitsOf n) = n := Nat.ofDigitChars_ten_toDigits

theorem isDigit_of_mem_digitsOf {n : Nat} {c : Char} (h : c ∈ digitsOf n) : c.isDigit = true :=
  Nat.isDigit_of_mem_toDigits (by decide) (by decide) h

theorem digitsOf_ne_nil (n : Nat) : digitsOf n ≠ [] := Nat.toDigits_ne_nil

theorem text_natCast (n : Nat) : text n = String.ofList (digitsOf n) := by
  unfold text
  rw [if_neg (by omega), Int.natAbs_natCast]

end Numeral

namespace Dimension

/-- A run of digits with a pixel suffix behind it is a pixel token. -/
theorem read_digits {g : Grammar} {ds : List Char} {suffix : String}
    (hds : ∀ c ∈ ds, c.isDigit = true) (hne : ds ≠ []) (hsuffix : suffix ∈ g.pixelSuffixes)
    (hends : Grammar.Ends suffix.toList) :
    read g (.str (String.ofList ds ++ suffix)) = ofPixelNumeral ⟨false, ds, []⟩ := by
  have hscan : Grammar.takeWhole? g.signed (ds ++ suffix.toList) =
      some (⟨false, ds, []⟩, suffix.toList) :=
    Grammar.takeWhole?_append (.whole .none hds hne) rfl fun c hc => (hends c hc).1
  have hpixel : g.pixel? (ds ++ suffix.toList) = some ⟨false, ds, []⟩ :=
    Grammar.scan_eq_some_iff.2 ⟨suffix, hsuffix, hscan⟩
  have hsome : String.ofList ds ++ suffix ≠ "" := by
    rw [Ne, String.append_eq_empty_iff, String.ofList_eq_empty_iff]
    exact fun h => hne h.1
  show readText g _ = _
  rw [readText_of_ne_empty g hsome, String.toList_append, String.toList_ofList,
    readToken_of_pixel? hpixel]

/-- The numeral of a number that is finite as a double is finite as well. -/
theorem isFinite_numeral {n : Nat} (h : (Number.int n).isFinite = true) :
    (Numeral.Signed.toBinary64 ⟨false, Numeral.digitsOf n, []⟩).isFinite = true := by
  rw [Number.isFinite_int] at h
  refine Binary64.isFinite_ofRatio_mono Nat.one_pos (Nat.pow_pos (by decide)) ?_ h
  rw [List.append_nil, Numeral.readDigits_digitsOf, Int.natAbs_natCast]
  show n * 1 * 1 ≤ n * 1
  omega

/-- A whole number is that many pixels. -/
theorem read_natCast {g : Grammar} (hbare : "" ∈ g.pixelSuffixes) {n : Nat}
    (hfin : (Number.int n).isFinite = true) (hprint : Numeral.printable n = true) :
    read g (.int n) = .ok (.pixel (.int n)) := by
  have hlength : (Numeral.digitsOf n).length ≤ Numeral.digitLimit := by
    refine Numeral.length_digitsOf_le (by decide) ?_
    have hbound := Numeral.printable_iff.1 hprint
    rwa [Int.natAbs_natCast] at hbound
  have hnumeral : ofPixelNumeral ⟨false, Numeral.digitsOf n, []⟩ = .ok (.pixel (.int n)) := by
    unfold ofPixelNumeral
    rw [if_pos (isFinite_numeral hfin), if_pos hlength]
    unfold Numeral.Signed.toInt
    dsimp only
    rw [if_neg (by decide), Numeral.readDigits_digitsOf]
  have hdigits : read g (.str (Numeral.text n)) = ofPixelNumeral ⟨false, Numeral.digitsOf n, []⟩ := by
    rw [Numeral.text_natCast, ← String.append_empty (s := String.ofList (Numeral.digitsOf n))]
    exact read_digits (fun c => Numeral.isDigit_of_mem_digitsOf) (Numeral.digitsOf_ne_nil n) hbare
      Grammar.ends_nil
  show readNumber g (.int n) = _
  unfold readNumber
  rw [if_pos hfin]
  exact hdigits.trans hnumeral

end Dimension

end ImageSizing
