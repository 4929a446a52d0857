import Mathlib.Computability.RegularExpressions
import ImageSizing.Proofs.Dimension.Spelling

/-!
# Token patterns

The tokens of a grammar as regular expressions, put together from its suffixes: pixels match
`[+-]?[0-9]+` and a suffix, factors and percentages `[+-]?[0-9]*\.?[0-9]+` and a suffix, the
sign only where signs are allowed.  The scanners accept the languages of these patterns, no
more and no less (`pixel?_eq_some_iff` and the like), provided no suffix goes on with a numeral.
Where no suffix is of two kinds, the languages have no token in common (`patterns_disjoint`).
-/

namespace ImageSizing

/-- A regular expression over characters. -/
abbrev Pattern := RegularExpression Char

namespace Pattern

def oneOf (cs : List Char) : Pattern := cs.foldr (fun c rest => .char c + rest) 0

/-- A fixed text. -/
def word (cs : List Char) : Pattern := cs.foldr (fun c rest => .char c * rest) 1

/-- One of some fixed texts. -/
def anyOf (words : List String) : Pattern := words.foldr (fun w rest => word w.toList + rest) 0

def digit : Pattern := oneOf ['0', '1', '2', '3', '4', '5', '6', '7', '8', '9']

def digits : Pattern := digit * digit.star

def sign (signed : Bool) : Pattern := if signed then 1 + oneOf ['+', '-'] else 1

/-- A numeral without a point. -/
def whole (signed : Bool) : Pattern := sign signed * digits

/-- A numeral that may have a point, with digits after it. -/
def decimal (signed : Bool) : Pattern := sign signed * (digit.star * ((1 + .char '.') * digits))

variable {cs : List Char}

theorem mem_oneOf {options : List Char} :
    cs ∈ (oneOf options).matches' ↔ ∃ c ∈ options, cs = [c] := by
  induction options with
  | nil =>
    refine iff_of_false (Language.notMem_zero cs) ?_
    rintro ⟨c, hc, -⟩
    cases hc
  | cons d rest ih =>
    have hcons : (oneOf (d :: rest)).matches' = {[d]} + (oneOf rest).matches' := rfl
    rw [hcons, Language.mem_add, ih, List.exists_mem_cons_iff]
    rfl

theorem mem_word {w : List Char} : cs ∈ (word w).matches' ↔ cs = w := by
  induction w generalizing cs with
  | nil => exact Language.mem_one cs
  | cons c rest ih =>
    have hcons : (word (c :: rest)).matches' = {[c]} * (word rest).matches' := rfl
    rw [hcons, Language.mem_mul]
    constructor
    · rintro ⟨first, rfl, last, hlast, rfl⟩
      rw [ih.1 hlast]
      rfl
    · rintro rfl
      exact ⟨[c], rfl, rest, ih.2 rfl, rfl⟩

theorem mem_anyOf {words : List String} :
    cs ∈ (anyOf words).matches' ↔ String.ofList cs ∈ words := by
  induction words with
  | nil => exact iff_of_false (Language.notMem_zero cs) List.not_mem_nil
  | cons w rest ih =>
    have hcons : (anyOf (w :: rest)).matches' = (word w.toList).matches' + (anyOf rest).matches' :=
      rfl
    rw [hcons, Language.mem_add, ih, mem_word, List.mem_cons, ← String.toList_inj,
      String.toList_ofList]

/-! ## Numerals -/

theorem isDigit_iff {c : Char} :
    c.isDigit = true ↔ c ∈ ['0', '1', '2', '3', '4', '5', '6', '7', '8', '9'] := by
  have hcodes : ∀ n < 58, 48 ≤ n →
      Char.ofNat n ∈ ['0', '1', '2', '3', '4', '5', '6', '7', '8', '9'] := by decide
  have hdigits : ∀ d ∈ ['0', '1', '2', '3', '4', '5', '6', '7', '8', '9'], d.isDigit = true :=
    List.all_eq_true.1 (by decide)
  constructor
  · intro h
    obtain ⟨hlow, hhigh⟩ := Char.isDigit_iff_toNat.1 h
    rw [← Char.ofNat_toNat c]
    exact hcodes c.toNat (Nat.lt_succ_of_le hhigh) hlow
  · exact hdigits c

theorem mem_digit : cs ∈ digit.matches' ↔ ∃ c, c.isDigit = true ∧ cs = [c] := by
  unfold digit
  rw [mem_oneOf]
  simp only [isDigit_iff]

theorem mem_star_digit : cs ∈ digit.star.matches' ↔ ∀ c ∈ cs, c.isDigit = true := by
  rw [RegularExpression.matches'_star, Language.mem_kstar]
  constructor
  · rintro ⟨parts, rfl, hparts⟩ c hc
    obtain ⟨part, hpart, hmem⟩ := List.mem_flatten.1 hc
    obtain ⟨d, hd, rfl⟩ := mem_digit.1 (hparts part hpart)
    rw [List.mem_singleton.1 hmem]
    exact hd
  · intro hcs
    refine ⟨cs.map fun c => [c], ?_, ?_⟩
    · induction cs with
      | nil => rfl
      | cons c rest ih =>
        rw [List.map_cons, List.flatten_cons, ← ih fun d hd => hcs d (List.mem_cons_of_mem c hd)]
        rfl
    · intro part hpart
      obtain ⟨c, hc, rfl⟩ := List.mem_map.1 hpart
      exact mem_digit.2 ⟨c, hcs c hc, rfl⟩

theorem mem_digits : cs ∈ digits.matches' ↔ cs ≠ [] ∧ ∀ c ∈ cs, c.isDigit = true := by
  unfold digits
  rw [RegularExpression.matches'_mul, Language.mem_mul]
  constructor
  · rintro ⟨first, hfirst, rest, hrest, rfl⟩
    obtain ⟨c, hc, rfl⟩ := mem_digit.1 hfirst
    exact ⟨List.cons_ne_nil c rest, List.forall_mem_cons.2 ⟨hc, mem_star_digit.1 hrest⟩⟩
  · rintro ⟨hne, hcs⟩
    obtain ⟨c, rest, rfl⟩ := List.exists_cons_of_ne_nil hne
    obtain ⟨hc, hrest⟩ := List.forall_mem_cons.1 hcs
    exact ⟨[c], mem_digit.2 ⟨c, hc, rfl⟩, rest, mem_star_digit.2 hrest, rfl⟩

theorem mem_sign {signed : Bool} :
    cs ∈ (sign signed).matches' ↔ ∃ negative, Grammar.IsSign signed cs negative := by
  unfold sign
  cases signed with
  | false =>
    rw [if_neg Bool.false_ne_true, RegularExpression.matches'_epsilon, Language.mem_one]
    constructor
    · rintro rfl
      exact ⟨false, .none⟩
    · rintro ⟨_, hsign⟩
      cases hsign with
      | none => rfl
      | minus allowed => cases allowed
      | plus allowed => cases allowed
  | true =>
    rw [if_pos rfl, RegularExpression.matches'_add, Language.mem_add,
      RegularExpression.matches'_epsilon, Language.mem_one, mem_oneOf]
    constructor
    · rintro (rfl | ⟨c, hc, rfl⟩)
      · exact ⟨false, .none⟩
      · rcases List.mem_pair.1 hc with rfl | rfl
        · exact ⟨false, .plus rfl⟩
        · exact ⟨true, .minus rfl⟩
    · rintro ⟨_, hsign⟩
      cases hsign with
      | none => exact .inl rfl
      | minus allowed => exact .inr ⟨'-', by decide, rfl⟩
      | plus allowed => exact .inr ⟨'+', by decide, rfl⟩

theorem mem_whole {signed : Bool} :
    cs ∈ (whole signed).matches' ↔ ∃ t, Grammar.Writes signed cs t ∧ t.part = [] := by
  unfold whole
  rw [RegularExpression.matches'_mul, Language.mem_mul]
  constructor
  · rintro ⟨first, hfirst, rest, hrest, rfl⟩
    obtain ⟨negative, hsign⟩ := mem_sign.1 hfirst
    obtain ⟨hne, hdigits⟩ := mem_digits.1 hrest
    exact ⟨_, .whole hsign hdigits hne, rfl⟩
  · rintro ⟨t, hwrites, hpart⟩
    cases hwrites with
    | whole sign_ok digits ne_nil =>
      exact ⟨_, mem_sign.2 ⟨_, sign_ok⟩, _, mem_digits.2 ⟨ne_nil, digits⟩, rfl⟩
    | point sign_ok digits after ne_nil => exact absurd hpart ne_nil

theorem mem_decimal {signed : Bool} :
    cs ∈ (decimal signed).matches' ↔ ∃ t, Grammar.Writes signed cs t := by
  unfold decimal
  rw [RegularExpression.matches'_mul, Language.mem_mul]
  constructor
  · rintro ⟨first, hfirst, rest, hrest, rfl⟩
    obtain ⟨negative, hsign⟩ := mem_sign.1 hfirst
    rw [RegularExpression.matches'_mul, Language.mem_mul] at hrest
    obtain ⟨ws, hws, rest, hrest, rfl⟩ := hrest
    rw [RegularExpression.matches'_mul, Language.mem_mul] at hrest
    obtain ⟨point, hpoint, ps, hps, rfl⟩ := hrest
    have hdigits := mem_star_digit.1 hws
    obtain ⟨hne, hafter⟩ := mem_digits.1 hps
    rw [RegularExpression.matches'_add, Language.mem_add, RegularExpression.matches'_epsilon,
      Language.mem_one] at hpoint
    rcases hpoint with rfl | rfl
    · -- without a point all digits are one run
      refine ⟨_, .whole hsign ?_ (List.append_ne_nil_of_right_ne_nil ws hne)⟩
      exact List.forall_mem_append.2 ⟨hdigits, hafter⟩
    · exact ⟨_, .point hsign hdigits hafter hne⟩
  · rintro ⟨t, hwrites⟩
    cases hwrites with
    | whole sign_ok digits ne_nil =>
      refine ⟨_, mem_sign.2 ⟨_, sign_ok⟩, _, ?_, rfl⟩
      exact ⟨[], mem_star_digit.2 (List.forall_mem_nil _), _,
        ⟨[], .inl rfl, _, mem_digits.2 ⟨ne_nil, digits⟩, rfl⟩, rfl⟩
    | point sign_ok digits after ne_nil =>
      refine ⟨_, mem_sign.2 ⟨_, sign_ok⟩, _, ?_, rfl⟩
      exact ⟨_, mem_star_digit.2 digits, _,
        ⟨['.'], .inr rfl, _, mem_digits.2 ⟨ne_nil, after⟩, rfl⟩, rfl⟩

end Pattern

namespace Grammar

open Pattern

/-- A token: a numeral of some pattern with one of some suffixes behind it. -/
def IsToken (numeral : Pattern) (suffixes : List String) (num cs : List Char) : Prop :=
  num ∈ numeral.matches' ∧ ∃ suffix ∈ suffixes, cs = num ++ suffix.toList

/-- The pattern of pixel tokens. -/
def pixelPattern (g : Grammar) : Pattern := whole g.signed * anyOf g.pixelSuffixes

def factorPattern (g : Grammar) : Pattern := decimal g.signed * anyOf g.factorSuffixes

def percentPattern (g : Grammar) : Pattern := decimal g.signed * anyOf g.percentSuffixes

/-- No suffix goes on with a numeral, and none is of two kinds. -/
structure Unambiguous (g : Grammar) : Prop where
  pixel : ∀ suffix ∈ g.pixelSuffixes, Ends suffix.toList
  factor : ∀ suffix ∈ g.factorSuffixes, Ends suffix.toList
  percent : ∀ suffix ∈ g.percentSuffixes, Ends suffix.toList
  pixel_factor : ∀ suffix ∈ g.pixelSuffixes, suffix ∉ g.factorSuffixes
  pixel_percent : ∀ suffix ∈ g.pixelSuffixes, suffix ∉ g.percentSuffixes
  factor_percent : ∀ suffix ∈ g.factorSuffixes, suffix ∉ g.percentSuffixes

/-- The grammars that are in use. -/
def all : List Grammar := [standard, short, withSigns, loose]

theorem unambiguous_of_mem_all {g : Grammar} (hg : g ∈ all) : g.Unambiguous := by
  unfold all at hg
  simp only [List.mem_cons, List.not_mem_nil, or_false] at hg
  rcases hg with rfl | rfl | rfl | rfl
  · exact ⟨by decide, by decide, by decide, by decide, by decide, by decide⟩
  · exact ⟨by decide, by decide, by decide, by decide, by decide, by decide⟩
  · exact ⟨by decide, by decide, by decide, by decide, by decide, by decide⟩
  · exact ⟨by decide, by decide, by decide, by decide, by decide, by decide⟩

variable {g : Grammar} {signed : Bool} {suffixes : List String} {cs num num' : List Char}
  {t t' : Numeral.Signed}

theorem mem_mul_anyOf {numeral : Pattern} :
    cs ∈ (numeral * anyOf suffixes).matches' ↔ ∃ num, IsToken numeral suffixes num cs := by
  rw [RegularExpression.matches'_mul, Language.mem_mul]
  constructor
  · rintro ⟨num, hnum, suffix, hsuffix, rfl⟩
    exact ⟨num, hnum, _, mem_anyOf.1 hsuffix, by rw [String.toList_ofList]⟩
  · rintro ⟨num, hnum, suffix, hsuffix, rfl⟩
    exact ⟨num, hnum, suffix.toList, mem_anyOf.2 (by rwa [String.ofList_toList]), rfl⟩

/-! ## Scanners and languages -/

/-- A text splits into a numeral and a suffix in one way. -/
theorem split_unique {suffix suffix' : List Char} (h : Writes signed num t)
    (h' : Writes signed num' t') (hends : Ends suffix) (hends' : Ends suffix')
    (heq : num ++ suffix = num' ++ suffix') : t = t' ∧ num = num' ∧ suffix = suffix' := by
  have htake := takeNumeral?_append h hends
  rw [heq, takeNumeral?_append h' hends'] at htake
  obtain ⟨ht, hsuffix⟩ := Prod.mk.inj (Option.some.inj htake)
  rw [hsuffix] at heq
  exact ⟨ht.symm, List.append_cancel_right heq, hsuffix.symm⟩

/-- A numeral is written in one way at most. -/
theorem Writes.unique (h : Writes signed num t) (h' : Writes signed num t') : t = t' := by
  exact (split_unique h h' ends_nil ends_nil rfl).1

theorem pixel?_eq_some_iff (hg : g.Unambiguous) : g.pixel? cs = some t ↔
    ∃ num, IsToken (whole g.signed) g.pixelSuffixes num cs ∧ Writes g.signed num t := by
  unfold pixel?
  rw [scan_eq_some_iff]
  constructor
  · rintro ⟨suffix, hmem, hscan⟩
    obtain ⟨num, hwrites, hpart, rfl⟩ := takeWhole?_eq_some hscan
    exact ⟨num, ⟨mem_whole.2 ⟨t, hwrites, hpart⟩, suffix, hmem, rfl⟩, hwrites⟩
  · rintro ⟨num, ⟨hnum, suffix, hmem, rfl⟩, hwrites⟩
    obtain ⟨t', hwrites', hpart⟩ := mem_whole.1 hnum
    rw [← hwrites.unique hwrites'] at hpart
    exact ⟨suffix, hmem, takeWhole?_append hwrites hpart fun c hc => (hg.pixel suffix hmem c hc).1⟩

theorem takeNumeral?_eq_some_iff (hends : ∀ suffix ∈ suffixes, Ends suffix.toList) :
    (∃ suffix ∈ suffixes, takeNumeral? signed cs = some (t, suffix.toList)) ↔
      ∃ num, IsToken (decimal signed) suffixes num cs ∧ Writes signed num t := by
  constructor
  · rintro ⟨suffix, hmem, hscan⟩
    obtain ⟨num, hwrites, rfl⟩ := takeNumeral?_eq_some hscan
    exact ⟨num, ⟨mem_decimal.2 ⟨t, hwrites⟩, suffix, hmem, rfl⟩, hwrites⟩
  · rintro ⟨num, ⟨-, suffix, hmem, rfl⟩, hwrites⟩
    exact ⟨suffix, hmem, takeNumeral?_append hwrites (hends suffix hmem)⟩

theorem factor?_eq_some_iff (hg : g.Unambiguous) : g.factor? cs = some t ↔
    ∃ num, IsToken (decimal g.signed) g.factorSuffixes num cs ∧ Writes g.signed num t := by
  unfold factor?
  rw [scan_eq_some_iff, takeNumeral?_eq_some_iff hg.factor]

theorem percent?_eq_some_iff (hg : g.Unambiguous) : g.percent? cs = some t ↔
    ∃ num, IsToken (decimal g.signed) g.percentSuffixes num cs ∧ Writes g.signed num t := by
  unfold percent?
  rw [scan_eq_some_iff, takeNumeral?_eq_some_iff hg.percent]

/-! ## Languages in common -/

/-- Suffixes of two kinds are not behind the same text. -/
theorem disjoint_of_suffixes {suffixes' : List String} {numeral numeral' : Pattern}
    (hwrites : ∀ num ∈ numeral.matches', ∃ t, Writes signed num t)
    (hwrites' : ∀ num ∈ numeral'.matches', ∃ t, Writes signed num t)
    (hends : ∀ suffix ∈ suffixes, Ends suffix.toList)
    (hends' : ∀ suffix ∈ suffixes', Ends suffix.toList)
    (hdisjoint : ∀ suffix ∈ suffixes, suffix ∉ suffixes') :
    ∀ cs ∈ (numeral * anyOf suffixes).matches', cs ∉ (numeral' * anyOf suffixes').matches' := by
  intro cs hcs hcs'
  obtain ⟨num, hnum, suffix, hsuffix, rfl⟩ := mem_mul_anyOf.1 hcs
  obtain ⟨num', hnum', suffix', hsuffix', heq⟩ := mem_mul_anyOf.1 hcs'
  obtain ⟨t, ht⟩ := hwrites num hnum
  obtain ⟨t', ht'⟩ := hwrites' num' hnum'
  obtain ⟨-, -, hsame⟩ := split_unique ht ht' (hends suffix hsuffix) (hends' suffix' hsuffix') heq
  exact hdisjoint suffix hsuffix (String.toList_inj.1 hsame ▸ hsuffix')

/-- No token is of two kinds. -/
theorem patterns_disjoint (hg : g.Unambiguous) :
    (∀ cs ∈ g.pixelPattern.matches', cs ∉ g.factorPattern.matches') ∧
      (∀ cs ∈ g.pixelPattern.matches', cs ∉ g.percentPattern.matches') ∧
      ∀ cs ∈ g.factorPattern.matches', cs ∉ g.percentPattern.matches' := by
  have hwhole : ∀ num ∈ (whole g.signed).matches', ∃ t, Writes g.signed num t := by
    intro num hnum
    obtain ⟨t, hwrites, -⟩ := mem_whole.1 hnum
    exact ⟨t, hwrites⟩
  have hdecimal : ∀ num ∈ (decimal g.signed).matches', ∃ t, Writes g.signed num t :=
    fun num => mem_decimal.1
  exact ⟨disjoint_of_suffixes hwhole hdecimal hg.pixel hg.factor hg.pixel_factor,
    disjoint_of_suffixes hwhole hdecimal hg.pixel hg.percent hg.pixel_percent,
    disjoint_of_suffixes hdecimal hdecimal hg.factor hg.percent hg.factor_percent⟩

end Grammar

end ImageSizing
