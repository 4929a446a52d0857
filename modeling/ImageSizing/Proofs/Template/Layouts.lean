import ImageSizing.Proofs.Template.Items

/-!
# Layouts without a slash

A layout that is read from a text without a slash pads and groups with other characters
(`Layout.slashless_read`), and digits, signs and marks are no slashes.  So what is written by it
has a slash only if the value that is written has one, or if the value is the number of the code
point of a slash and is written as a character (`slash_not_mem_writeValue`).
-/

namespace ImageSizing

open Text

namespace Layout

/-- Neither the fill of a layout nor its separator is a slash. -/
structure Slashless (l : Layout) : Prop where
  fill : l.fill ≠ '/'
  separator : l.separator ≠ some '/'

/-! ## Reading -/

theorem mem_of_takeAlignment {source : List Char} {c : Char}
    (h : (takeAlignment source).1 = some c) : c ∈ source := by
  unfold takeAlignment at h
  split at h
  · split at h <;> cases h
    exact List.mem_cons_self
  · split at h <;> cases h
  · cases h

theorem takeSeparator_ne_slash {cs rest : List Char} {separator : Option Char}
    (h : takeSeparator cs = .ok (separator, rest)) : separator ≠ some '/' := by
  unfold takeSeparator at h
  dsimp only at h
  split_ifs at h <;> cases h <;> decide

theorem fill_ne_slash {source : List Char} (hsource : '/' ∉ source) (zero : Bool) :
    (takeAlignment source).1.getD (if zero then '0' else ' ') ≠ '/' := by
  cases hfill : (takeAlignment source).1 with
  | none => cases zero <;> decide
  | some c =>
    rintro rfl
    exact hsource (mem_of_takeAlignment hfill)

theorem slashless_read {source : List Char} {align : Alignment} {code : Option Char}
    {typeName : String} {l : Layout} (hsource : '/' ∉ source)
    (h : read source align code typeName = .ok l) : l.Slashless := by
  have hfill := fill_ne_slash hsource
  unfold read at h
  dsimp only at h
  obtain ⟨⟨width, afterWidth⟩, _, h⟩ := bind_eq_ok h
  obtain ⟨⟨separator, afterSeparator⟩, hseparator, h⟩ := bind_eq_ok h
  obtain ⟨⟨precision, afterPrecision⟩, _, h⟩ := bind_eq_ok h
  have hne := takeSeparator_ne_slash hseparator
  -- whatever code the layout ends in and whether or not it has a separator
  dsimp only at h
  split at h
  case h_3 => cases h
  all_goals
    obtain ⟨code', _, h⟩ := bind_eq_ok h
    cases separator with
    | none =>
      cases h
      exact ⟨hfill _, hne⟩
    | some c =>
      dsimp only at h
      cases hfits : separatorFits c code' <;> rw [hfits] at h <;> cases h
      exact ⟨hfill _, hne⟩

/-! ## Padding -/

variable {l : Layout} {cs : List Char}

theorem slash_not_mem_pad (hl : l.Slashless) (hcs : '/' ∉ cs) : '/' ∉ l.pad cs := by
  have hpadding := slash_not_mem_replicate hl.fill
  unfold pad
  split
  · exact slash_not_mem_append hcs (hpadding _)
  · exact slash_not_mem_append (slash_not_mem_append (hpadding _) hcs) (hpadding _)
  · exact slash_not_mem_append (hpadding _) hcs

theorem slash_not_mem_groupReversed {separator : Char} (hseparator : separator ≠ '/')
    (size fuel least : Nat) (hcs : '/' ∉ cs) :
    '/' ∉ groupReversed size separator fuel cs least := by
  induction fuel generalizing cs least with
  | zero => exact hcs
  | succ fuel ih =>
    have hzeros : ∀ n, '/' ∉ List.replicate n '0' := slash_not_mem_replicate (by decide)
    have hgroup : ∀ n m, '/' ∉ cs.take n ++ List.replicate m '0' := fun n m =>
      slash_not_mem_append (slash_not_mem_of_sublist (List.take_sublist _ _) hcs) (hzeros _)
    unfold groupReversed
    dsimp only
    split
    · exact hgroup _ _
    · refine slash_not_mem_append (hgroup _ _) ?_
      refine List.not_mem_cons_of_ne_of_not_mem hseparator.symm (ih _ ?_)
      exact slash_not_mem_of_sublist (List.drop_sublist _ _) hcs

theorem slash_not_mem_groupDigits (hl : l.Slashless) (hcs : '/' ∉ cs) (least : Nat) :
    '/' ∉ l.groupDigits cs least := by
  unfold groupDigits
  split
  · exact slash_not_mem_append (slash_not_mem_replicate (by decide) _) hcs
  · rename_i separator hseparator
    have hne : separator ≠ '/' := by
      rintro rfl
      exact hl.separator hseparator
    rw [List.mem_reverse]
    refine slash_not_mem_groupReversed hne _ _ _ ?_
    rwa [List.mem_reverse]

theorem slash_not_mem_signText (l : Layout) (negative : Bool) : '/' ∉ l.signText negative := by
  unfold signText
  split
  · decide
  · split <;> decide

theorem slash_not_mem_number (hl : l.Slashless) (negative : Bool) {mark digits rest : List Char}
    (hmark : '/' ∉ mark) (hdigits : '/' ∉ digits) (hrest : '/' ∉ rest) :
    '/' ∉ l.number negative mark digits rest := by
  have hsign := slash_not_mem_signText l negative
  have hgrouped : ∀ least, '/' ∉ if digits.isEmpty then [] else l.groupDigits digits least := by
    intro least
    split
    · exact List.not_mem_nil
    · exact slash_not_mem_groupDigits hl hdigits least
  have hfront := slash_not_mem_append hsign hmark
  unfold number
  dsimp only
  split
  · refine slash_not_mem_append (slash_not_mem_append (slash_not_mem_append hfront ?_) ?_) hrest
    · exact slash_not_mem_replicate hl.fill _
    · exact hgrouped _
  · exact slash_not_mem_pad hl (slash_not_mem_append (slash_not_mem_append hfront (hgrouped _)) hrest)

theorem slash_not_mem_text {written : List Char} (hl : l.Slashless) (hcs : '/' ∉ cs)
    (h : l.text cs = .ok written) : '/' ∉ written := by
  unfold text at h
  split at h
  · split_ifs at h
    cases h
    exact slash_not_mem_pad hl (slash_not_mem_of_sublist (List.take_sublist _ _) hcs)
  · cases h
  · cases h
    exact slash_not_mem_pad hl hcs

/-! ## Doubles -/

/-- Neither of the two parts of a number has a slash. -/
def Parts.Slashless (parts : Parts) : Prop := '/' ∉ parts.1 ∧ '/' ∉ parts.2

theorem slash_not_mem_fraction (alternate : Bool) (hcs : '/' ∉ cs) :
    '/' ∉ fraction alternate cs := by
  unfold fraction
  split
  · exact List.not_mem_nil
  · exact List.not_mem_cons_of_ne_of_not_mem (by decide) hcs

theorem slash_not_mem_padRight (n : Nat) (hcs : '/' ∉ cs) : '/' ∉ padRight n cs :=
  slash_not_mem_append hcs (slash_not_mem_replicate (by decide) _)

variable {d : Binary64.Decimal}

theorem slashless_scientific (alternate : Bool) (count : Nat) (hd : '/' ∉ d.digits) :
    (scientific alternate count d).Slashless := by
  refine ⟨slash_not_mem_of_sublist (List.take_sublist _ _) hd, slash_not_mem_append ?_ ?_⟩
  · refine slash_not_mem_fraction alternate (slash_not_mem_of_sublist (List.drop_sublist _ _) ?_)
    exact slash_not_mem_padRight count hd
  · refine List.not_mem_cons_of_ne_of_not_mem (by decide) ?_
    exact Binary64.Decimal.slash_not_mem_exponentText _

theorem slashless_positional (alternate : Bool) (count least : Nat) (hd : '/' ∉ d.digits) :
    (positional alternate count least d).Slashless := by
  obtain ⟨hwhole, hpart⟩ := Binary64.Decimal.slash_not_mem_positional hd
  exact ⟨hwhole, slash_not_mem_fraction alternate (slash_not_mem_padRight _ hpart)⟩

theorem slashless_fixed (alternate : Bool) (units places : Nat) :
    (fixed alternate units places).Slashless := by
  obtain ⟨hwhole, hpart⟩ := Binary64.slash_not_mem_fixedParts units places
  exact ⟨hwhole, slash_not_mem_fraction alternate hpart⟩

theorem slashless_general (alternate keepPoint : Bool) (units precision : Nat) :
    (general alternate keepPoint units precision).Slashless := by
  have hd := Binary64.slash_not_mem_significant units (Nat.max precision 1)
  unfold general
  dsimp only
  split_ifs
  all_goals first
    | exact slashless_scientific _ _ hd
    | exact slashless_positional _ _ _ hd

theorem slashless_plain (alternate : Bool) (units : Nat) : (plain alternate units).Slashless := by
  have hd := Binary64.slash_not_mem_shortest units
  unfold plain
  dsimp only
  split
  · exact slashless_scientific _ _ hd
  · exact slashless_positional _ _ _ hd

theorem slashless_magnitude (l : Layout) (units : Nat) : (l.magnitude units).Slashless := by
  unfold magnitude
  split
  · exact slashless_plain _ _
  · exact slashless_general _ _ _ _
  · dsimp only
    split_ifs
    · exact slashless_scientific _ _ (Binary64.slash_not_mem_significant _ _)
    · exact slashless_fixed _ _ _
    · exact slashless_general _ _ _ _

theorem slash_not_mem_inCase (l : Layout) (hcs : '/' ∉ cs) : '/' ∉ l.inCase cs := by
  unfold inCase
  split
  · exact slash_not_mem_toUpper hcs
  · exact hcs

theorem slash_not_mem_doubleBody (hl : l.Slashless) (x : Binary64) : '/' ∉ l.doubleBody x := by
  have hpercent : '/' ∉ if l.code = some '%' then ['%'] else [] := by
    split <;> decide
  unfold doubleBody
  dsimp only
  split
  · refine slash_not_mem_number hl _ List.not_mem_nil List.not_mem_nil ?_
    exact slash_not_mem_append (slash_not_mem_inCase l (by decide)) hpercent
  · refine slash_not_mem_number hl _ List.not_mem_nil List.not_mem_nil ?_
    exact slash_not_mem_append (slash_not_mem_inCase l (by decide)) hpercent
  · rename_i negative units _ _
    obtain ⟨hwhole, hrest⟩ := slashless_magnitude l units
    refine slash_not_mem_number hl _ List.not_mem_nil hwhole ?_
    exact slash_not_mem_append (slash_not_mem_inCase l hrest) hpercent

theorem slash_not_mem_double {x : Binary64} {written : List Char} (hl : l.Slashless)
    (h : l.double x = .ok written) : '/' ∉ written := by
  unfold double at h
  split_ifs at h
  cases h
  exact slash_not_mem_doubleBody (l := l.withoutNull) ⟨hl.fill, hl.separator⟩ x

/-! ## Integers -/

theorem slash_not_mem_inBase (hl : l.Slashless) (n : Int) (c : Char) : '/' ∉ l.inBase n c := by
  have hdigits := slash_not_mem_toDigits (base c) n.natAbs
  unfold inBase
  refine slash_not_mem_number hl _ ?_ ?_ List.not_mem_nil
  · split
    · unfold baseMark
      split <;> decide
    · exact List.not_mem_nil
  · split
    · exact slash_not_mem_toUpper hdigits
    · exact hdigits

theorem slash_not_mem_character {n : Int} {written : List Char} (hl : l.Slashless)
    (hn : n ≠ '/'.toNat) (h : l.character n = .ok written) : '/' ∉ written := by
  unfold character at h
  split_ifs at h with _ _ _ hrange
  cases h
  refine slash_not_mem_number hl _ List.not_mem_nil List.not_mem_nil ?_
  rw [List.mem_singleton]
  intro hslash
  have hcode := eq_of_ofNat_eq_slash hslash.symm
  omega

theorem slash_not_mem_integer {n : Int} {typeName : String} {written : List Char}
    (hl : l.Slashless) (hn : l.code = some 'c' → n ≠ '/'.toNat)
    (h : l.integer n typeName = .ok written) : '/' ∉ written := by
  unfold integer at h
  dsimp only at h
  split_ifs at h with _ _ _ hc hdouble
  · refine slash_not_mem_character hl (hn ?_) h
    cases hcode : l.code with
    | none =>
      rw [hcode] at hc
      cases hc
    | some c =>
      rw [hcode] at hc
      exact congrArg some hc
  · cases h
    exact slash_not_mem_inBase hl _ _
  · split at h
    · cases h
    · cases h
  · split at h
    · cases h
    · cases h
      exact slash_not_mem_doubleBody hl _

end Layout

namespace Template

/-! ## Values -/

theorem eq_ok_of_ofLayout {α : Type} {x : Except LayoutFault α} {a : α} (h : ofLayout x = .ok a) :
    x = .ok a := by
  cases x with
  | ok b =>
    cases h
    rfl
  | error f => cases h

variable {layout written : List Char}

theorem slash_not_mem_writeText {s : String} (hlayout : '/' ∉ layout) (hs : Text.Slashless s)
    (h : writeText layout s = .ok written) : '/' ∉ written := by
  obtain ⟨l, hl, h⟩ := bind_eq_ok h
  exact Layout.slash_not_mem_text (Layout.slashless_read hlayout (eq_ok_of_ofLayout hl)) hs
    (eq_ok_of_ofLayout h)

theorem slash_not_mem_writeDouble {x : Binary64} (hlayout : '/' ∉ layout)
    (h : writeDouble layout x = .ok written) : '/' ∉ written := by
  obtain ⟨l, hl, h⟩ := bind_eq_ok h
  exact Layout.slash_not_mem_double (Layout.slashless_read hlayout (eq_ok_of_ofLayout hl))
    (eq_ok_of_ofLayout h)

/-- A layout asks for the character of a code point. -/
def AsksForCharacter (layout : List Char) : Prop :=
  ∃ typeName l, Layout.read layout .right (some 'd') typeName = .ok l ∧ l.code = some 'c'

theorem slash_not_mem_writeInteger {n : Int} {typeName : String} (hlayout : '/' ∉ layout)
    (hn : AsksForCharacter layout → n ≠ '/'.toNat)
    (h : writeInteger layout n typeName = .ok written) : '/' ∉ written := by
  obtain ⟨l, hl, h⟩ := bind_eq_ok h
  obtain ⟨cs, hcs, h⟩ := bind_eq_ok h
  have hread := eq_ok_of_ofLayout hl
  split at h <;> cases h
  refine Layout.slash_not_mem_integer (Layout.slashless_read hlayout hread) ?_
    (eq_ok_of_ofLayout hcs)
  exact fun hcode => hn ⟨typeName, l, hread, hcode⟩

/-- What is written of a value by a layout has a slash only if one of them has, or if the value is
the code point of a slash and written as a character. -/
theorem slash_not_mem_writeValue {v : Value} (hv : v.Slashless) (hlayout : '/' ∉ layout)
    (hcharacter : AsksForCharacter layout → v ≠ .int '/'.toNat)
    (h : writeValue layout v = .ok written) : '/' ∉ written := by
  unfold writeValue at h
  split at h
  · obtain ⟨s, hs, h⟩ := bind_eq_ok h
    cases h
    exact Value.slashless_of_display? hv hs
  · split at h
    · exact slash_not_mem_writeText hlayout (Value.slashless_str.1 hv) h
    · refine slash_not_mem_writeInteger hlayout (fun hasks hn => hcharacter hasks ?_) h
      rw [hn]
    · refine slash_not_mem_writeInteger hlayout (fun _ => ?_) h
      split <;> decide
    · exact slash_not_mem_writeDouble hlayout h
    · cases h

end Template

end ImageSizing
