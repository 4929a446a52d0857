import ImageSizing.Proofs.Binary64.Nearest
import ImageSizing.Proofs.Dimension.Integers
import ImageSizing.Proofs.Dimension.Spelling

/-!
# Whole numbers up to the last double

A whole number reads like its decimal text, and a whole double like the integer that it is,
whatever the grammar.  The integer is looked at as a double only to see whether there is one,
and both ways of looking agree on where the doubles end, at 2¹⁰²⁴ - 2⁹⁷⁰
(`isFinite_toBinary64_iff`, `isFinite_int_iff`).  Below that a number of pixels is read as it
is written, leading zeros or not, and from there on it is invalid (`read_integers`).
-/

namespace ImageSizing

/-! ## Where the doubles end -/

theorem Number.isFinite_int_iff {n : Int} :
    (Number.int n).isFinite = true ↔ n.natAbs < 2 ^ 1024 - 2 ^ 970 := by
  rw [Number.isFinite_int]
  unfold Binary64.ofInt
  rw [Binary64.isFinite_ofRatio_iff Nat.one_pos, Nat.mul_one]

namespace Numeral

variable {t : Numeral.Signed}

/-- The double of a numeral is that of its digits over a power of ten. -/
theorem Signed.toBinary64_eq (t : Numeral.Signed) : t.toBinary64 =
    Binary64.ofRatio t.negative (readDigits (t.whole ++ t.part)) (10 ^ t.part.length) := by
  have hnone : (-(t.part.length : Int)).toNat = 0 := by omega
  have hplaces : (-(-(t.part.length : Int))).toNat = t.part.length := by omega
  unfold Signed.toBinary64 Binary64.ofDecimal
  rw [hnone, hplaces]
  show Binary64.ofRatio t.negative (_ * 1) _ = _
  rw [Nat.mul_one]
  rfl

/-- A numeral without a point has a finite double if the integer that it writes has one. -/
theorem isFinite_toBinary64_iff (hpart : t.part = []) :
    t.toBinary64.isFinite = true ↔ t.toInt.natAbs < 2 ^ 1024 - 2 ^ 970 := by
  rw [Signed.toBinary64_eq, Binary64.isFinite_ofRatio_iff (Nat.pow_pos (by decide)),
    Signed.natAbs_toInt, hpart, List.append_nil, List.length_nil, Nat.pow_zero, Nat.mul_one]

/-- Leading zeros do not count. -/
theorem readDigits_zeros (k : Nat) (ds : List Char) :
    readDigits (List.replicate k '0' ++ ds) = readDigits ds := by
  induction k with
  | zero => rfl
  | succ k ih => exact ih

/-- The text of an integer writes it, where its sign is allowed. -/
theorem writes_text {signed : Bool} {n : Int} (h : signed = true ∨ 0 ≤ n) :
    ∃ t, Grammar.Writes signed (text n).toList t ∧ t.part = [] ∧ t.toInt = n := by
  have hdigits : ∀ c ∈ digitsOf n.natAbs, c.isDigit = true := fun c => isDigit_of_mem_digitsOf
  have hne := digitsOf_ne_nil n.natAbs
  unfold text
  rw [String.toList_ofList]
  by_cases hneg : n < 0
  · rw [if_pos hneg]
    have hsigned : signed = true := h.resolve_right (by omega)
    refine ⟨_, .whole (.minus hsigned) hdigits hne, rfl, ?_⟩
    show -(readDigits (digitsOf n.natAbs) : Int) = n
    rw [readDigits_digitsOf]
    omega
  · rw [if_neg hneg]
    refine ⟨_, .whole .none hdigits hne, rfl, ?_⟩
    show (readDigits (digitsOf n.natAbs) : Int) = n
    rw [readDigits_digitsOf]
    omega

theorem text_ne_empty (n : Int) : text n ≠ "" := by
  unfold text
  rw [Ne, String.ofList_eq_empty_iff]
  split
  · exact List.cons_ne_nil _ _
  · exact digitsOf_ne_nil n.natAbs

end Numeral

namespace Dimension

open Numeral

variable {g : Grammar}

/-! ## Numbers and their texts -/

/-- A numeral without a finite double is invalid, whichever kind of token it is. -/
theorem readToken_of_infinite {num : List Char} {t : Numeral.Signed}
    (h : Grammar.Writes g.signed num t) (hpart : t.part = []) (hfin : t.toBinary64.isFinite = false) :
    readToken g num = .ok invalid := by
  have hwhole := Grammar.takeWhole?_append h hpart fun c hc => (Grammar.ends_nil c hc).1
  have hnumeral := Grammar.takeNumeral?_append h Grammar.ends_nil
  rw [List.append_nil] at hwhole hnumeral
  have hscanned : ∀ {scan : List Char → Option (Numeral.Signed × List Char)} {suffixes t'},
      scan num = some (t, []) → ((scan num).bind fun t =>
        if Grammar.hasSuffix suffixes t.2 then some t.1 else none) = some t' →
      t'.toBinary64.isFinite ≠ true := by
    intro scan suffixes t' hscan h
    obtain ⟨suffix, -, hscan'⟩ := Grammar.scan_eq_some_iff.1 h
    obtain ⟨rfl, -⟩ := Prod.mk.inj (Option.some.inj (hscan.symm.trans hscan'))
    exact Bool.eq_false_iff.1 hfin
  rcases readToken_cases g num with ⟨t', hpixel, hread⟩ |
    ⟨-, ⟨t', hfactor, hread⟩ | ⟨t', hpercent, hread⟩ | hread⟩
  · rw [hread]
    unfold ofPixelNumeral
    rw [if_neg (hscanned hwhole hpixel)]
  · rw [hread]
    unfold ofFactorNumeral
    rw [if_neg (hscanned hnumeral hfactor)]
  · rw [hread]
    unfold ofPercentNumeral
    rw [if_neg (hscanned hnumeral hpercent)]
  · exact hread

/-- A sign that is not allowed makes a token invalid. -/
theorem readToken_minus (hg : g.signed = false) (cs : List Char) :
    readToken g ('-' :: cs) = .ok invalid := by
  have hpixel : g.pixel? ('-' :: cs) = none := by
    unfold Grammar.pixel?
    rw [hg]
    rfl
  have hfactor : g.factor? ('-' :: cs) = none := by
    unfold Grammar.factor?
    rw [hg]
    rfl
  have hpercent : g.percent? ('-' :: cs) = none := by
    unfold Grammar.percent?
    rw [hg]
    rfl
  exact readToken_of_none hpixel hfactor hpercent

theorem readText_of_negative (hg : g.signed = false) {n : Int} (hn : n < 0) :
    readText g (text n) = .ok invalid := by
  rw [readText_of_ne_empty g (text_ne_empty n)]
  unfold text
  rw [if_pos hn, String.toList_ofList]
  exact readToken_minus hg _

/-- The text of an integer without a double is invalid. -/
theorem readText_of_infinite {n : Int} (h : (Number.int n).isFinite = false) :
    readText g (text n) = .ok invalid := by
  by_cases hallowed : g.signed = true ∨ 0 ≤ n
  · obtain ⟨t, hwrites, hpart, htoInt⟩ := writes_text hallowed
    have hfin : t.toBinary64.isFinite = false := by
      rw [Bool.eq_false_iff, Ne, isFinite_toBinary64_iff hpart, htoInt, ← Number.isFinite_int_iff, h]
      exact Bool.false_ne_true
    rw [readText_of_ne_empty g (text_ne_empty n)]
    exact readToken_of_infinite hwrites hpart hfin
  · obtain ⟨hsigned, hn⟩ := not_or.1 hallowed
    exact readText_of_negative (Bool.eq_false_iff.2 hsigned) (Int.not_le.1 hn)

/-- An integer reads like its text. -/
theorem read_int (g : Grammar) (n : Int) : read g (.int n) = read g (.str (text n)) := by
  show readNumber g (.int n) = readText g (text n)
  unfold readNumber
  cases hfin : (Number.int n).isFinite with
  | true => rfl
  | false => exact (readText_of_infinite hfin).symm

/-- The integer that a whole double is has that double. -/
theorem isFinite_int_of_truncate? {x : Binary64} {n : Int} (hx : x.isWhole = true)
    (hn : x.truncate? = some n) : (Number.int n).isFinite = true := by
  cases x with
  | nan => cases hn
  | infinite s => cases hn
  | finite s u fits =>
    have hwhole : u % Binary64.unitsPerOne = 0 := eq_of_beq hx
    have habs : n.natAbs = u / Binary64.unitsPerOne := by
      cases hn
      rw [Int.natAbs_tdiv]
      cases s
      · rfl
      · rw [if_pos rfl, Int.natAbs_neg]
        rfl
    have hunits : n.natAbs * Binary64.unitsPerOne = u := by
      rw [habs]
      exact Nat.div_mul_cancel (Nat.dvd_of_mod_eq_zero hwhole)
    rw [Number.isFinite_int]
    unfold Binary64.ofInt Binary64.ofRatio Binary64.ofUnitRatio
    rw [hunits, dif_pos (by rw [Binary64.roundUnits_of_representable fits]; exact fits.1)]
    rfl

/-- A whole double reads like the integer that it is. -/
theorem read_float (g : Grammar) {x : Binary64} {n : Int} (hx : x.isWhole = true)
    (hn : x.truncate? = some n) : read g (.float x) = read g (.int n) := by
  have hfin : (Number.float x).isFinite = true := by
    cases x with
    | finite s u fits => rfl
    | _ => cases hn
  have htoken : tokenOf (.float x) = tokenOf (.int n) := by
    unfold tokenOf
    dsimp only
    rw [hx, hn]
  show readNumber g (.float x) = readNumber g (.int n)
  unfold readNumber
  rw [hfin, isFinite_int_of_truncate? hx hn, htoken]

/-! ## Leading zeros and a suffix -/

/-- A natural number with leading zeros and a suffix, as a text. -/
def paddedText (k n : Nat) (suffix : String) : String :=
  String.ofList (List.replicate k '0' ++ digitsOf n) ++ suffix

theorem read_paddedText (k n : Nat) {suffix : String} (hsuffix : suffix ∈ ["", "px"]) :
    read .standard (.str (paddedText k n suffix)) =
      ofPixelNumeral ⟨false, List.replicate k '0' ++ digitsOf n, []⟩ := by
  have hends : ∀ suffix ∈ ["", "px"], Grammar.Ends suffix.toList := by decide
  refine read_digits ?_ ?_ hsuffix (hends suffix hsuffix)
  · intro c hc
    rcases List.mem_append.1 hc with hzero | hdigit
    · rw [(List.mem_replicate.1 hzero).2]
      rfl
    · exact isDigit_of_mem_digitsOf hdigit
  · exact List.append_ne_nil_of_right_ne_nil _ (digitsOf_ne_nil n)

theorem toInt_padded (k n : Nat) :
    Signed.toInt ⟨false, List.replicate k '0' ++ digitsOf n, []⟩ = n := by
  show (readDigits (List.replicate k '0' ++ digitsOf n) : Int) = n
  rw [readDigits_zeros, readDigits_digitsOf]

/-- Below the last double a padded number is read as it is written. -/
theorem read_paddedText_below {k n : Nat} (hn : n < 2 ^ 1024 - 2 ^ 970)
    (hk : k + (digitsOf n).length ≤ digitLimit) {suffix : String} (hsuffix : suffix ∈ ["", "px"]) :
    read .standard (.str (paddedText k n suffix)) = .ok (pixel (.int n)) := by
  have hfin : Signed.toBinary64 ⟨false, List.replicate k '0' ++ digitsOf n, []⟩ |>.isFinite := by
    rw [isFinite_toBinary64_iff rfl, toInt_padded, Int.natAbs_natCast]
    exact hn
  rw [read_paddedText k n hsuffix]
  unfold ofPixelNumeral
  rw [if_pos hfin, if_pos (by rw [List.length_append, List.length_replicate]; exact hk), toInt_padded]

/-- From the last double on a padded number is invalid, however many digits it has. -/
theorem read_paddedText_beyond (k : Nat) {n : Nat} (hn : 2 ^ 1024 - 2 ^ 970 ≤ n) {suffix : String}
    (hsuffix : suffix ∈ ["", "px"]) :
    read .standard (.str (paddedText k n suffix)) = .ok invalid := by
  have hfin : ¬(Signed.toBinary64 ⟨false, List.replicate k '0' ++ digitsOf n, []⟩ |>.isFinite) := by
    rw [isFinite_toBinary64_iff rfl, toInt_padded, Int.natAbs_natCast]
    exact Nat.not_lt.2 hn
  rw [read_paddedText k n hsuffix]
  unfold ofPixelNumeral
  rw [if_neg hfin]

theorem doubles_le_digitLimit : 2 ^ 1024 - 2 ^ 970 ≤ Nat.pow 10 digitLimit := by decide +kernel

/-- Numbers below the last double are short. -/
theorem length_digitsOf_le_of_lt {n : Nat} (hn : n < 2 ^ 1024 - 2 ^ 970) :
    (digitsOf n).length ≤ digitLimit :=
  length_digitsOf_le (by decide) (Nat.lt_of_lt_of_le hn doubles_le_digitLimit)

theorem paddedText_zero (n : Nat) : paddedText 0 n "" = text n := by
  unfold paddedText
  rw [List.replicate_zero, List.nil_append, String.append_empty, text_natCast]

/-- An integer reads like its decimal text and a whole double like its integer, whatever the
grammar.  In the standard grammar a natural number below 2¹⁰²⁴ - 2⁹⁷⁰ is that many pixels, and
so is its text with or without `px`, with as many leading zeros as the digit limit leaves room
for; from there on all of them are invalid, and so are negative integers. -/
theorem read_integers :
    (∀ (g : Grammar) (n : Int), read g (.int n) = read g (.str (text n))) ∧
    (∀ (g : Grammar) (x : Binary64) (n : Int), x.isWhole = true → x.truncate? = some n →
      read g (.float x) = read g (.int n)) ∧
    (∀ n : Nat, n < 2 ^ 1024 - 2 ^ 970 →
      read .standard (.int n) = .ok (pixel (.int n)) ∧
      ∀ suffix ∈ ["", "px"],
        read .standard (.str (text n ++ suffix)) = .ok (pixel (.int n)) ∧
        ∀ k, k + (digitsOf n).length ≤ digitLimit →
          read .standard (.str (String.ofList (List.replicate k '0') ++ text n ++ suffix)) =
            .ok (pixel (.int n))) ∧
    (∀ n : Nat, 2 ^ 1024 - 2 ^ 970 ≤ n →
      read .standard (.int n) = .ok invalid ∧
      ∀ suffix ∈ ["", "px"],
        read .standard (.str (text n ++ suffix)) = .ok invalid ∧
        ∀ k, read .standard (.str (String.ofList (List.replicate k '0') ++ text n ++ suffix)) =
          .ok invalid) ∧
    ∀ n : Int, n < 0 → read .standard (.int n) = .ok invalid := by
  have hpadded : ∀ (k n : Nat) (suffix : String),
      String.ofList (List.replicate k '0') ++ text n ++ suffix = paddedText k n suffix := by
    intro k n suffix
    unfold paddedText
    rw [text_natCast, String.ofList_append]
  have hplain : ∀ (n : Nat) (suffix : String), text n ++ suffix = paddedText 0 n suffix := by
    intro n suffix
    unfold paddedText
    rw [text_natCast, List.replicate_zero, List.nil_append]
  refine ⟨read_int, fun g x n => read_float g, ?_, ?_, ?_⟩
  · intro n hn
    have hshort : 0 + (digitsOf n).length ≤ digitLimit := by
      rw [Nat.zero_add]
      exact length_digitsOf_le_of_lt hn
    refine ⟨?_, ?_⟩
    · rw [read_int, ← paddedText_zero]
      exact read_paddedText_below hn hshort (by decide)
    · intro suffix hsuffix
      refine ⟨?_, ?_⟩
      · rw [hplain]
        exact read_paddedText_below hn hshort hsuffix
      · intro k hk
        rw [hpadded]
        exact read_paddedText_below hn hk hsuffix
  · intro n hn
    refine ⟨?_, ?_⟩
    · rw [read_int, ← paddedText_zero]
      exact read_paddedText_beyond 0 hn (by decide)
    · intro suffix hsuffix
      refine ⟨?_, ?_⟩
      · rw [hplain]
        exact read_paddedText_beyond 0 hn hsuffix
      · intro k
        rw [hpadded]
        exact read_paddedText_beyond k hn hsuffix
  · intro n hn
    rw [read_int]
    exact readText_of_negative rfl hn

/-- A number with leading zeros, and a whole double. -/
theorem read_integers_seven :
    read .standard (.str "007px") = .ok (pixel (.int 7)) ∧
    read .loose (.float (Binary64.ofInt 7)) = read .loose (.str "7") := by
  obtain ⟨hint, hfloat, hbelow, -⟩ := read_integers
  have hseven := (hbelow 7 (by decide +kernel)).2 "px" (by decide)
  refine ⟨hseven.2 2 (by decide), ?_⟩
  rw [hfloat .loose (Binary64.ofInt 7) 7 (by decide +kernel) (by decide +kernel), hint]
  rfl

end Dimension

end ImageSizing
