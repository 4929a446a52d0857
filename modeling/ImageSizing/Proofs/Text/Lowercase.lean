import ImageSizing.Text.Lowercase

/-!
# Words in lower case

Beyond ASCII, lower case brings no character of ASCII about, with two exceptions: the Kelvin sign
becomes a `k`, and the I with a dot above an `i` that another character follows.  A word of plain
characters (`IsPlain`) is therefore the lower case of its own ASCII spellings and of nothing else
(`lower_eq_iff`).  A dot in front of a word leaves its lower case as it is (`lower_dot`).
-/

namespace ImageSizing.Text

/-- An ASCII character that is not the lower case of any character beyond ASCII. -/
def IsPlain (c : Char) : Prop := 0 < c.toNat ∧ c.toNat < 128 ∧ c ≠ 'k'

instance (c : Char) : Decidable (IsPlain c) :=
  inferInstanceAs (Decidable (0 < c.toNat ∧ c.toNat < 128 ∧ c ≠ 'k'))

/-! ## Characters beyond ASCII -/

theorem toLower_of_not_ascii {c : Char} (h : ¬c.toNat < 128) : c.toLower = c := by
  unfold Char.toLower
  rw [dif_neg]
  rintro ⟨-, hupper⟩
  have hupper' : c.toNat ≤ 90 := hupper
  omega

/-- Every run of capitals but that of the Kelvin sign leads beyond ASCII. -/
theorem capitalRuns_beyond_ascii : ∀ r ∈ capitalRuns,
    128 ≤ (r.1 : Int) + r.2.2.2 ∨ r.1 = 0x212A ∧ r.2.1 = 0x212A ∧ r.2.2.2 = -8383 := by
  decide +kernel

theorem not_isPlain_ofNat {n : Nat} (h : 128 ≤ n) : ¬IsPlain (Char.ofNat n) := by
  rintro ⟨hpos, hascii, -⟩
  by_cases hvalid : n.isValidChar
  · have hchar : Char.ofNat n = Char.ofNatAux n hvalid := dif_pos hvalid
    rw [hchar] at hascii
    have hn : n < 128 := hascii
    omega
  · have hzero : Char.ofNat n = '\x00' := dif_neg hvalid
    rw [hzero] at hpos
    exact absurd hpos (by decide)

/-- The lower case of a character beyond ASCII is not made of plain characters. -/
theorem lowerChar_not_plain {c : Char} (h : ¬c.toNat < 128) : ∃ x ∈ lowerChar c, ¬IsPlain x := by
  unfold lowerChar
  rw [if_neg h]
  by_cases hdotted : c = '\u0130'
  · rw [if_pos hdotted]
    exact ⟨'\u0307', by decide, by decide⟩
  · rw [if_neg hdotted]
    split
    · next r hrun =>
      have hin := List.find?_some hrun
      simp only [Bool.and_eq_true, decide_eq_true_eq] at hin
      refine ⟨_, List.mem_singleton.2 rfl, ?_⟩
      rcases capitalRuns_beyond_ascii r (List.mem_of_find?_eq_some hrun) with hbeyond | ⟨hfirst, hlast, hoff⟩
      · exact not_isPlain_ofNat (by omega)
      · have hkelvin : ((c.toNat : Int) + r.2.2.2).toNat = 107 := by omega
        rw [hkelvin]
        decide
    · exact ⟨c, List.mem_singleton.2 rfl, fun hplain => h hplain.2.1⟩

/-! ## Words -/

theorem toList_toLower (s : String) : s.toLower.toList = s.toList.map Char.toLower :=
  String.toList_map

theorem lowerFrom_of_ascii {cs : List Char} (h : ∀ c ∈ cs, c.toNat < 128) (b : Bool) :
    lowerFrom b cs = cs.map Char.toLower := by
  induction cs generalizing b with
  | nil => rfl
  | cons c cs ih =>
    rw [List.forall_mem_cons] at h
    have hsigma : c ≠ '\u03A3' := by
      rintro rfl
      exact absurd h.1 (by decide)
    have hchar : lowerChar c = [c.toLower] := if_pos h.1
    unfold lowerFrom
    rw [if_neg hsigma, hchar, ih h.2]
    rfl

/-- What becomes a plain word is ASCII. -/
theorem ascii_of_lowerFrom {cs : List Char} {b : Bool} (h : ∀ w ∈ lowerFrom b cs, IsPlain w) :
    ∀ c ∈ cs, c.toNat < 128 := by
  induction cs generalizing b with
  | nil => exact List.forall_mem_nil _
  | cons c cs ih =>
    unfold lowerFrom at h
    rw [List.forall_mem_append] at h
    refine List.forall_mem_cons.2 ⟨?_, ih h.2⟩
    by_cases hsigma : c = '\u03A3'
    · rw [if_pos hsigma, List.forall_mem_singleton] at h
      split at h
      · exact absurd h.1 (by decide)
      · exact absurd h.1 (by decide)
    · rw [if_neg hsigma] at h
      by_cases hascii : c.toNat < 128
      · exact hascii
      · obtain ⟨x, hx, hplain⟩ := lowerChar_not_plain hascii
        exact absurd (h.1 x hx) hplain

/-- A plain word is the lower case of what spells it in small and capital letters of ASCII, and of
nothing else. -/
theorem lower_eq_iff {s word : String} (hword : ∀ w ∈ word.toList, IsPlain w) :
    lower s = word ↔ s.toLower = word := by
  have hlower : (lower s).toList = lowerFrom false s.toList := String.toList_ofList
  have hsmall := toList_toLower s
  constructor
  · rintro rfl
    rw [hlower] at hword
    rw [← String.toList_inj, hlower, hsmall, lowerFrom_of_ascii (ascii_of_lowerFrom hword)]
  · rintro rfl
    have hascii : ∀ c ∈ s.toList, c.toNat < 128 := by
      intro c hc
      by_cases hascii : c.toNat < 128
      · exact hascii
      · have hplain : IsPlain c.toLower := hword c.toLower (hsmall ▸ List.mem_map_of_mem hc)
        rw [toLower_of_not_ascii hascii] at hplain
        exact hplain.2.1
    rw [← String.toList_inj, hlower, hsmall, lowerFrom_of_ascii hascii]

/-- A dot at the start stays there, and the case of what follows is the same without it. -/
theorem lower_dot (s : String) : lower ("." ++ s) = "." ++ lower s := by
  have hdot : isCaseIgnorable '.' = true := by decide +kernel
  have hfrom : ∀ cs, lowerFrom false ('.' :: cs) = '.' :: lowerFrom false cs := by
    intro cs
    rw [lowerFrom, hdot]
    rfl
  unfold lower
  rw [String.toList_append]
  exact (congrArg String.ofList (hfrom s.toList)).trans String.ofList_cons

end ImageSizing.Text
