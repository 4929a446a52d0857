import Mathlib.Data.List.TakeWhile
import ImageSizing.Proofs.Dimension.Boundary
import ImageSizing.Proofs.Dimension.Patterns

/-!
# What a text is read as

A text is read as the one kind of token that it is (`read_str_iff`).  The number is the one
that the numeral writes, digit by digit: exactly for pixels, and as the nearest double for
factors and percentages.  Since no text is a token of two kinds, it makes no difference which
kind is tried first (`findSome?_readers`).
-/

namespace ImageSizing

/-! ## What numerals write -/

namespace Numeral

def isNegative (num : List Char) : Bool := num.head? == some '-'

/-- The number of digits after the point. -/
def places (num : List Char) : Nat := (num.dropWhile (· != '.')).length - 1

/-- The fraction that a numeral writes, without its sign. -/
def magnitude (num : List Char) : ℚ :=
  (Nat.ofDigitChars 10 (num.filter Char.isDigit) 0 : ℚ) / 10 ^ places num

def value (num : List Char) : ℚ := if isNegative num then -magnitude num else magnitude num

end Numeral

namespace Grammar

open Numeral

variable {signed : Bool} {num : List Char} {t : Numeral.Signed}

theorem filter_digits {ds : List Char} (h : ∀ c ∈ ds, c.isDigit = true) :
    ds.filter Char.isDigit = ds := List.filter_eq_self.2 h

theorem IsSign.filter {sign : List Char} {negative : Bool} (h : IsSign signed sign negative) :
    sign.filter Char.isDigit = [] := by
  cases h <;> rfl

theorem Writes.filter (h : Writes signed num t) : num.filter Char.isDigit = t.whole ++ t.part := by
  cases h with
  | whole sign_ok digits ne_nil =>
    rw [List.filter_append, sign_ok.filter, filter_digits digits, List.append_nil, List.nil_append]
  | point sign_ok digits after ne_nil =>
    rw [List.filter_append, List.filter_append, sign_ok.filter, filter_digits digits,
      List.filter_cons_of_neg (by decide), filter_digits after, List.nil_append]

theorem IsSign.isNegative {sign : List Char} {negative : Bool} (h : IsSign signed sign negative)
    {c : Char} (hc : c ≠ '-') (rest : List Char) :
    Numeral.isNegative (sign ++ c :: rest) = negative := by
  unfold Numeral.isNegative
  cases h with
  | none => simpa using hc
  | minus allowed => rfl
  | plus allowed => rfl

theorem Writes.isNegative (h : Writes signed num t) : Numeral.isNegative num = t.negative := by
  have hdigit : ∀ c : Char, c.isDigit = true → c ≠ '-' := by
    rintro c hc rfl
    exact absurd hc (by decide)
  cases h with
  | whole sign_ok digits ne_nil =>
    obtain ⟨c, ds, rfl⟩ := List.exists_cons_of_ne_nil ne_nil
    exact sign_ok.isNegative (hdigit c (digits c List.mem_cons_self)) ds
  | @point sign ws ps negative sign_ok digits after ne_nil =>
    cases ws with
    | nil => exact sign_ok.isNegative (by decide) ps
    | cons c ws => exact sign_ok.isNegative (hdigit c (digits c List.mem_cons_self)) _

theorem Writes.places (h : Writes signed num t) : Numeral.places num = t.part.length := by
  have hsign : ∀ {sign : List Char} {negative : Bool}, IsSign signed sign negative →
      ∀ c ∈ sign, (c != '.') = true := by
    intro sign negative hsign c hc
    cases hsign with
    | none => cases hc
    | minus allowed =>
      rw [List.mem_singleton.1 hc]
      rfl
    | plus allowed =>
      rw [List.mem_singleton.1 hc]
      rfl
  have hdigit : ∀ c : Char, c.isDigit = true → (c != '.') = true := by
    intro c hc
    rw [bne_iff_ne]
    rintro rfl
    exact absurd hc (by decide)
  unfold Numeral.places
  cases h with
  | whole sign_ok digits ne_nil =>
    rw [List.dropWhile_append_of_pos (hsign sign_ok),
      List.dropWhile_eq_nil_iff.2 fun c hc => hdigit c (digits c hc)]
    rfl
  | @point sign ws ps negative sign_ok digits after ne_nil =>
    rw [List.dropWhile_append_of_pos (hsign sign_ok),
      List.dropWhile_append_of_pos fun c hc => hdigit c (digits c hc)]
    rfl

theorem Writes.magnitude (h : Writes signed num t) :
    Numeral.magnitude num = (readDigits (t.whole ++ t.part) : ℚ) / (10 ^ t.part.length : ℕ) := by
  unfold Numeral.magnitude
  rw [h.filter, h.places]
  push_cast
  rfl

/-- A numeral without a point writes an integer. -/
theorem Writes.value (h : Writes signed num t) (hpart : t.part = []) :
    Numeral.value num = (t.toInt : ℚ) := by
  unfold Numeral.value Signed.toInt
  rw [h.magnitude, h.isNegative, hpart, List.append_nil, List.length_nil, Nat.pow_zero, Nat.cast_one,
    div_one]
  split
  · push_cast
    rfl
  · push_cast
    rfl

/-- The double of a numeral is the one nearest to the fraction that it writes. -/
theorem Writes.rounds (h : Writes signed num t) {x : Binary64} :
    Binary64.Rounds (Numeral.isNegative num) (Numeral.magnitude num) x ↔
      t.toBinary64 = x ∧ x.isFinite = true := by
  rw [h.magnitude, h.isNegative, Signed.toBinary64_eq]
  exact Binary64.rounds_iff (Nat.pow_pos (by decide))

/-! ## Tokens and their numbers -/

variable {g : Grammar} {cs : List Char}

/-- A pixel token and the integer that it writes. -/
theorem exists_pixel_iff (hg : g.Unambiguous) {n : Int} :
    (∃ num, IsToken (Pattern.whole g.signed) g.pixelSuffixes num cs ∧ (n : ℚ) = Numeral.value num) ↔
      ∃ t, g.pixel? cs = some t ∧ t.toInt = n := by
  constructor
  · rintro ⟨num, htoken, hvalue⟩
    obtain ⟨t, hwrites, hpart⟩ := Pattern.mem_whole.1 htoken.1
    rw [hwrites.value hpart] at hvalue
    exact ⟨t, (pixel?_eq_some_iff hg).2 ⟨num, htoken, hwrites⟩, (Int.cast_injective hvalue).symm⟩
  · rintro ⟨t, hpixel, rfl⟩
    obtain ⟨num, htoken, hwrites⟩ := (pixel?_eq_some_iff hg).1 hpixel
    obtain ⟨t', hwrites', hpart⟩ := Pattern.mem_whole.1 htoken.1
    rw [← hwrites.unique hwrites'] at hpart
    exact ⟨num, htoken, (hwrites.value hpart).symm⟩

/-- A factor token and the double nearest to the fraction that it writes. -/
theorem exists_factor_iff (hg : g.Unambiguous) {x : Binary64} :
    (∃ num, IsToken (Pattern.decimal g.signed) g.factorSuffixes num cs ∧
        Binary64.Rounds (Numeral.isNegative num) (Numeral.magnitude num) x) ↔
      ∃ t, g.factor? cs = some t ∧ t.toBinary64 = x ∧ x.isFinite = true := by
  constructor
  · rintro ⟨num, htoken, hrounds⟩
    obtain ⟨t, hwrites⟩ := Pattern.mem_decimal.1 htoken.1
    exact ⟨t, (factor?_eq_some_iff hg).2 ⟨num, htoken, hwrites⟩, hwrites.rounds.1 hrounds⟩
  · rintro ⟨t, hfactor, hx⟩
    obtain ⟨num, htoken, hwrites⟩ := (factor?_eq_some_iff hg).1 hfactor
    exact ⟨num, htoken, hwrites.rounds.2 hx⟩

/-- A percentage token and the double nearest to the fraction that it writes. -/
theorem exists_percent_iff (hg : g.Unambiguous) {x : Binary64} :
    (∃ num, IsToken (Pattern.decimal g.signed) g.percentSuffixes num cs ∧
        Binary64.Rounds (Numeral.isNegative num) (Numeral.magnitude num) x) ↔
      ∃ t, g.percent? cs = some t ∧ t.toBinary64 = x ∧ x.isFinite = true := by
  constructor
  · rintro ⟨num, htoken, hrounds⟩
    obtain ⟨t, hwrites⟩ := Pattern.mem_decimal.1 htoken.1
    exact ⟨t, (percent?_eq_some_iff hg).2 ⟨num, htoken, hwrites⟩, hwrites.rounds.1 hrounds⟩
  · rintro ⟨t, hpercent, hx⟩
    obtain ⟨num, htoken, hwrites⟩ := (percent?_eq_some_iff hg).1 hpercent
    exact ⟨num, htoken, hwrites.rounds.2 hx⟩

/-- A text that one scanner accepts is accepted by no other. -/
theorem scanners_exclusive (hg : g.Unambiguous) (cs : List Char) :
    (g.pixel? cs = none ∨ g.factor? cs = none) ∧ (g.pixel? cs = none ∨ g.percent? cs = none) ∧
      (g.factor? cs = none ∨ g.percent? cs = none) := by
  have hpixel : ∀ t, g.pixel? cs = some t → cs ∈ g.pixelPattern.matches' := by
    intro t h
    obtain ⟨num, htoken, -⟩ := (pixel?_eq_some_iff hg).1 h
    exact mem_mul_anyOf.2 ⟨num, htoken⟩
  have hfactor : ∀ t, g.factor? cs = some t → cs ∈ g.factorPattern.matches' := by
    intro t h
    obtain ⟨num, htoken, -⟩ := (factor?_eq_some_iff hg).1 h
    exact mem_mul_anyOf.2 ⟨num, htoken⟩
  have hpercent : ∀ t, g.percent? cs = some t → cs ∈ g.percentPattern.matches' := by
    intro t h
    obtain ⟨num, htoken, -⟩ := (percent?_eq_some_iff hg).1 h
    exact mem_mul_anyOf.2 ⟨num, htoken⟩
  obtain ⟨hpf, hpp, hfp⟩ := patterns_disjoint hg
  cases hp : g.pixel? cs with
  | some t =>
    have hmem := hpixel t hp
    refine ⟨.inr ?_, .inr ?_, ?_⟩
    · exact Option.eq_none_iff_forall_ne_some.2 fun t' h => hpf cs hmem (hfactor t' h)
    · exact Option.eq_none_iff_forall_ne_some.2 fun t' h => hpp cs hmem (hpercent t' h)
    · exact .inl (Option.eq_none_iff_forall_ne_some.2 fun t' h => hpf cs hmem (hfactor t' h))
  | none =>
    refine ⟨.inl rfl, .inl rfl, ?_⟩
    cases hf : g.factor? cs with
    | some t =>
      exact .inr (Option.eq_none_iff_forall_ne_some.2 fun t' h => hfp cs (hfactor t hf) (hpercent t' h))
    | none => exact .inl rfl

end Grammar

namespace Dimension

open Numeral

variable {g : Grammar} {cs : List Char} {s : String}

/-! ## The order of the kinds -/

/-- The ways to read a token, one for each kind. -/
def readers (g : Grammar) : List (List Char → Option (Except Fault Dimension)) :=
  [fun cs => (g.pixel? cs).map ofPixelNumeral,
    fun cs => (g.factor? cs).map fun t => .ok (ofFactorNumeral t),
    fun cs => (g.percent? cs).map fun t => .ok (ofPercentNumeral t)]

theorem readToken_eq_findSome? (g : Grammar) (cs : List Char) :
    readToken g cs = ((readers g).findSome? (· cs)).getD (.ok invalid) := by
  unfold readToken readers
  simp only [List.findSome?_cons, List.findSome?_nil]
  cases g.pixel? cs with
  | some t => rw [Option.map_some, Option.getD_some]
  | none =>
    cases g.factor? cs with
    | some t => rw [Option.map_none, Option.map_some, Option.getD_some]
    | none =>
      cases g.percent? cs with
      | some t => rw [Option.map_none, Option.map_none, Option.map_some, Option.getD_some]
      | none => rw [Option.map_none, Option.map_none, Option.map_none, Option.getD_none]

/-- The order does not matter to functions of which one at most has a result. -/
theorem findSome?_perm {α β : Type} {x : α} {fs fs' : List (α → Option β)} (hperm : fs'.Perm fs)
    (hone : fs.Pairwise fun f f' => f x = none ∨ f' x = none) :
    fs'.findSome? (· x) = fs.findSome? (· x) := by
  have hone' : fs.Pairwise fun f f' => ∀ r r', f x = some r → f' x = some r' → r = r' := by
    refine hone.imp ?_
    rintro f f' (h | h) r r' hr hr'
    · rw [h] at hr
      cases hr
    · rw [h] at hr'
      cases hr'
  have hsame : ∀ f ∈ fs, ∀ f' ∈ fs, ∀ r r', f x = some r → f' x = some r' → r = r' := by
    intro f hf f' hf'
    refine List.Pairwise.forall_of_forall_of_flip ?_ hone' ?_ hf hf'
    · exact fun f _ r r' hr hr' => Option.some.inj (hr.symm.trans hr')
    · exact hone'.imp fun h r r' hr hr' => (h r' r hr' hr).symm
  cases hfs : fs.findSome? (· x) with
  | none =>
    rw [List.findSome?_eq_none_iff] at hfs ⊢
    exact fun f hf => hfs f (hperm.subset hf)
  | some r =>
    obtain ⟨f, hf, hr⟩ := List.exists_of_findSome?_eq_some hfs
    cases hfs' : fs'.findSome? (· x) with
    | none =>
      rw [List.findSome?_eq_none_iff] at hfs'
      rw [hfs' f (hperm.symm.subset hf)] at hr
      cases hr
    | some r' =>
      obtain ⟨f', hf', hr'⟩ := List.exists_of_findSome?_eq_some hfs'
      rw [hsame f hf f' (hperm.subset hf') r r' hr hr']

/-- The kinds may be tried in any order. -/
theorem findSome?_readers (hg : g.Unambiguous)
    {order : List (List Char → Option (Except Fault Dimension))} (horder : order.Perm (readers g))
    (cs : List Char) : order.findSome? (· cs) = (readers g).findSome? (· cs) := by
  obtain ⟨hpf, hpp, hfp⟩ := Grammar.scanners_exclusive hg cs
  refine findSome?_perm horder ?_
  unfold readers
  simp only [List.pairwise_cons, List.forall_mem_cons, Option.map_eq_none_iff]
  exact ⟨⟨hpf, hpp, List.forall_mem_nil _⟩, ⟨hfp, List.forall_mem_nil _⟩, List.forall_mem_nil _, .nil⟩

/-! ## Reading a text -/

theorem pixel_inj {m n : Int} : pixel (.int m) = pixel (.int n) ↔ m = n := by
  constructor
  · intro h
    cases h
    rfl
  · rintro rfl
    rfl

theorem factor_inj {x y : Binary64} : factor x = factor y ↔ x = y := by
  constructor
  · intro h
    cases h
    rfl
  · rintro rfl
    rfl

/-- What a text has been read as, and by which scanner. -/
theorem readText_eq_ok {d : Dimension} (h : readText g s = .ok d) :
    (s = "" ∧ d = unspecified) ∨ s ≠ "" ∧
      ((∃ t, g.pixel? s.toList = some t ∧ t.toBinary64.isFinite = true ∧ d = pixel (.int t.toInt)) ∨
      (∃ t, g.factor? s.toList = some t ∧ t.toBinary64.isFinite = true ∧ d = factor t.toBinary64) ∨
      (∃ t, g.percent? s.toList = some t ∧ t.toBinary64.isFinite = true ∧
        d = factor (t.toBinary64.div Binary64.hundred)) ∨ d = invalid) := by
  by_cases hs : s = ""
  · subst hs
    cases h
    exact .inl ⟨rfl, rfl⟩
  · refine .inr ⟨hs, ?_⟩
    rw [readText_of_ne_empty g hs] at h
    rcases readToken_cases g s.toList with ⟨t, hpixel, hread⟩ |
      ⟨-, ⟨t, hfactor, hread⟩ | ⟨t, hpercent, hread⟩ | hread⟩
    · rw [hread] at h
      unfold ofPixelNumeral at h
      split at h
      · rename_i hfin
        split at h
        · cases h
          exact .inl ⟨t, hpixel, hfin, rfl⟩
        · cases h
      · cases h
        exact .inr (.inr (.inr rfl))
    · cases hread.symm.trans h
      unfold ofFactorNumeral
      split
      · rename_i hfin
        exact .inr (.inl ⟨t, hfactor, hfin, rfl⟩)
      · exact .inr (.inr (.inr rfl))
    · cases hread.symm.trans h
      unfold ofPercentNumeral
      split
      · rename_i hfin
        exact .inr (.inr (.inl ⟨t, hpercent, hfin, rfl⟩))
      · exact .inr (.inr (.inr rfl))
    · cases hread.symm.trans h
      exact .inr (.inr (.inr rfl))

variable {t : Numeral.Signed}

theorem readText_of_pixel? (hpixel : g.pixel? s.toList = some t) (hfin : t.toBinary64.isFinite = true)
    (hshort : (Grammar.leadingDigits g.signed s.toList).length ≤ digitLimit) :
    readText g s = .ok (pixel (.int t.toInt)) := by
  have hs : s ≠ "" := by
    rintro rfl
    cases hpixel
  rw [readText_of_ne_empty g hs, readToken_of_pixel? hpixel]
  unfold ofPixelNumeral
  rw [if_pos hfin, Grammar.whole_of_pixel? hpixel, if_pos hshort]

theorem readText_of_factor? (hg : g.Unambiguous) (hfactor : g.factor? s.toList = some t)
    (hfin : t.toBinary64.isFinite = true) : readText g s = .ok (factor t.toBinary64) := by
  have hs : s ≠ "" := by
    rintro rfl
    cases hfactor
  obtain ⟨hpf, -, -⟩ := Grammar.scanners_exclusive hg s.toList
  rw [hfactor] at hpf
  rw [readText_of_ne_empty g hs, readToken_of_factor? (hpf.resolve_right nofun) hfactor]
  unfold ofFactorNumeral
  rw [if_pos hfin]

theorem readText_of_percent? (hg : g.Unambiguous) (hpercent : g.percent? s.toList = some t)
    (hfin : t.toBinary64.isFinite = true) :
    readText g s = .ok (factor (t.toBinary64.div Binary64.hundred)) := by
  have hs : s ≠ "" := by
    rintro rfl
    cases hpercent
  obtain ⟨-, hpp, hfp⟩ := Grammar.scanners_exclusive hg s.toList
  rw [hpercent] at hpp hfp
  rw [readText_of_ne_empty g hs,
    readToken_of_percent? (hpp.resolve_right nofun) (hfp.resolve_right nofun) hpercent]
  unfold ofPercentNumeral
  rw [if_pos hfin]

/-- A text is read as so many pixels if and only if it is a pixel token that writes the number. -/
theorem eq_pixel_iff (hg : g.Unambiguous)
    (hshort : (Grammar.leadingDigits g.signed s.toList).length ≤ digitLimit) {d : Dimension}
    (h : readText g s = .ok d) (n : Int) :
    d = pixel (.int n) ↔
      (∃ num, Grammar.IsToken (Pattern.whole g.signed) g.pixelSuffixes num s.toList ∧
        (n : ℚ) = Numeral.value num) ∧ n.natAbs < 2 ^ 1024 - 2 ^ 970 := by
  rw [Grammar.exists_pixel_iff hg]
  constructor
  · rintro rfl
    rcases readText_eq_ok h with ⟨-, hd⟩ | ⟨-, ⟨t, hpixel, hfin, hd⟩ | ⟨t, -, -, hd⟩ | ⟨t, -, -, hd⟩ | hd⟩
    · cases hd
    · obtain rfl := pixel_inj.1 hd
      rw [isFinite_toBinary64_iff (part_of_pixel? hpixel)] at hfin
      exact ⟨⟨t, hpixel, rfl⟩, hfin⟩
    · cases hd
    · cases hd
    · cases hd
  · rintro ⟨⟨t, hpixel, rfl⟩, hbound⟩
    have hfin := (isFinite_toBinary64_iff (part_of_pixel? hpixel)).2 hbound
    exact Except.ok.inj (h.symm.trans (readText_of_pixel? hpixel hfin hshort))

/-- A text is read as a factor if and only if it is a factor token that writes a fraction whose
nearest double that is, or a percentage token and it is the hundredth of that double. -/
theorem eq_factor_iff (hg : g.Unambiguous) {d : Dimension} (h : readText g s = .ok d)
    (v : Binary64) :
    d = factor v ↔
      (∃ num, Grammar.IsToken (Pattern.decimal g.signed) g.factorSuffixes num s.toList ∧
        Binary64.Rounds (isNegative num) (magnitude num) v) ∨
      ∃ x, (∃ num, Grammar.IsToken (Pattern.decimal g.signed) g.percentSuffixes num s.toList ∧
        Binary64.Rounds (isNegative num) (magnitude num) x) ∧ v = x.div Binary64.hundred := by
  simp only [Grammar.exists_factor_iff hg, Grammar.exists_percent_iff hg]
  constructor
  · rintro rfl
    rcases readText_eq_ok h with ⟨-, hd⟩ | ⟨-, ⟨t, -, -, hd⟩ | ⟨t, hfactor, hfin, hd⟩ |
      ⟨t, hpercent, hfin, hd⟩ | hd⟩
    · cases hd
    · cases hd
    · obtain rfl := factor_inj.1 hd
      exact .inl ⟨t, hfactor, rfl, hfin⟩
    · exact .inr ⟨_, ⟨t, hpercent, rfl, hfin⟩, factor_inj.1 hd⟩
    · cases hd
  · rintro (⟨t, hfactor, rfl, hfin⟩ | ⟨x, ⟨t, hpercent, rfl, hfin⟩, rfl⟩)
    · exact Except.ok.inj (h.symm.trans (readText_of_factor? hg hfactor hfin))
    · exact Except.ok.inj (h.symm.trans (readText_of_percent? hg hpercent hfin))

/-- No text is a token of two kinds, so that the kinds may be tried in any order.  A text with
not too many digits at its beginning is read as the one kind of token that it is, provided the
number that it writes has a double; the empty text is left out, and all others are invalid. -/
theorem read_str_iff {g : Grammar} (hg : g ∈ Grammar.all) {s : String}
    (hshort : (Grammar.leadingDigits g.signed s.toList).length ≤ digitLimit) :
    ((∀ cs ∈ g.pixelPattern.matches', cs ∉ g.factorPattern.matches') ∧
      (∀ cs ∈ g.pixelPattern.matches', cs ∉ g.percentPattern.matches') ∧
      ∀ cs ∈ g.factorPattern.matches', cs ∉ g.percentPattern.matches') ∧
    (s ≠ "" → ∀ order : List (List Char → Option (Except Fault Dimension)), order.Perm (readers g) →
      read g (.str s) = (order.findSome? (· s.toList)).getD (.ok invalid)) ∧
    ∃ d, read g (.str s) = .ok d ∧
      (d = unspecified ↔ s = "") ∧
      (∀ n : Int, d = pixel (.int n) ↔
        (∃ num, Grammar.IsToken (Pattern.whole g.signed) g.pixelSuffixes num s.toList ∧
          (n : ℚ) = Numeral.value num) ∧ n.natAbs < 2 ^ 1024 - 2 ^ 970) ∧
      (∀ v, d = factor v ↔
        (∃ num, Grammar.IsToken (Pattern.decimal g.signed) g.factorSuffixes num s.toList ∧
          Binary64.Rounds (isNegative num) (magnitude num) v) ∨
        ∃ x, (∃ num, Grammar.IsToken (Pattern.decimal g.signed) g.percentSuffixes num s.toList ∧
          Binary64.Rounds (isNegative num) (magnitude num) x) ∧ v = x.div Binary64.hundred) ∧
      (d = invalid ↔ s ≠ "" ∧ (∀ n, d ≠ pixel (.int n)) ∧ ∀ v, d ≠ factor v) := by
  have hunambiguous := Grammar.unambiguous_of_mem_all hg
  refine ⟨Grammar.patterns_disjoint hunambiguous, ?_, ?_⟩
  · intro hs order horder
    rw [findSome?_readers hunambiguous horder, ← readToken_eq_findSome?]
    exact readText_of_ne_empty g hs
  · obtain ⟨d, hread⟩ := exists_readText hshort
    refine ⟨d, hread, ?_, eq_pixel_iff hunambiguous hshort hread, eq_factor_iff hunambiguous hread, ?_⟩
    · rcases readText_eq_ok hread with ⟨rfl, rfl⟩ | ⟨hs, ⟨t, -, -, rfl⟩ | ⟨t, -, -, rfl⟩ |
        ⟨t, -, -, rfl⟩ | rfl⟩
      · exact iff_of_true rfl rfl
      · exact iff_of_false nofun hs
      · exact iff_of_false nofun hs
      · exact iff_of_false nofun hs
      · exact iff_of_false nofun hs
    · rcases readText_eq_ok hread with ⟨rfl, rfl⟩ | ⟨hs, ⟨t, -, -, rfl⟩ | ⟨t, -, -, rfl⟩ |
        ⟨t, -, -, rfl⟩ | rfl⟩
      · exact iff_of_false nofun fun h => h.1 rfl
      · exact iff_of_false nofun fun h => h.2.1 _ rfl
      · exact iff_of_false nofun fun h => h.2.2 _ rfl
      · exact iff_of_false nofun fun h => h.2.2 _ rfl
      · exact iff_of_true rfl ⟨hs, nofun, nofun⟩

/-- A sign and a zero before the other digits, in the grammar with signs. -/
theorem read_str_iff_negative :
    (Grammar.leadingDigits true "-012px".toList).length ≤ digitLimit ∧
      read .withSigns (.str "-012px") = .ok (pixel (.int (-12))) := by
  have hshort : (Grammar.leadingDigits true "-012px".toList).length ≤ digitLimit := by decide
  obtain ⟨-, -, d, hread, -, hpixel, -⟩ := read_str_iff (g := .withSigns) (by decide) hshort
  have hwrites : Grammar.Writes true "-012".toList ⟨true, "012".toList, []⟩ :=
    .whole (.minus rfl) (List.all_eq_true.1 (by decide)) (by decide)
  have htoken : ∃ num, Grammar.IsToken (Pattern.whole true) ["", "px"] num "-012px".toList ∧
      ((-12 : Int) : ℚ) = Numeral.value num :=
    ⟨"-012".toList, ⟨Pattern.mem_whole.2 ⟨_, hwrites, rfl⟩, "px", by decide, rfl⟩, by decide +kernel⟩
  refine ⟨hshort, ?_⟩
  rw [hread, (hpixel (-12)).2 ⟨htoken, by decide +kernel⟩]

end Dimension

end ImageSizing
