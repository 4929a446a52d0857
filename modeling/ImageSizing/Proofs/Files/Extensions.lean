import Mathlib.Tactic.SplitIfs
import ImageSizing.Proofs.Files.Below
import ImageSizing.Proofs.Text.Lowercase

/-!
# Extensions

The extension of a file name starts at its last dot, as long as something else than dots stands
before that dot (`splitName_append_dot`, `splitName_cases`).  A file is taken for a picture exactly
if its name ends in such an extension of the six supported ones, spelled in small or capital letters
(`isSupported_iff`); no letter beyond ASCII stands in for one of these.  A path has the extension of
its last part, whatever dots are in the others (`extension_join`).
-/

namespace ImageSizing.Path

open Text

/-! ## The last dot of a name -/

theorem splitName_append_dot {stem es : List Char} (hes : '.' ∉ es) (hstem : ∃ c ∈ stem, c ≠ '.') :
    splitName (stem ++ '.' :: es) = (stem, '.' :: es) := by
  have hpos : ∀ c ∈ es.reverse, (c != '.') = true := by
    intro c hc
    rw [bne_iff_ne]
    rintro rfl
    exact hes (List.mem_reverse.1 hc)
  have hdots : stem.reverse.all (· == '.') ≠ true := by
    obtain ⟨c, hc, hne⟩ := hstem
    rw [ne_eq, List.all_eq_true]
    intro hall
    exact hne (beq_iff_eq.1 (hall c (List.mem_reverse.2 hc)))
  have hreverse : (stem ++ '.' :: es).reverse = es.reverse ++ '.' :: stem.reverse := by simp
  have hdrop : (es.reverse ++ '.' :: stem.reverse).dropWhile (· != '.') = '.' :: stem.reverse := by
    rw [List.dropWhile_append_of_pos hpos]
    rfl
  have htake : (es.reverse ++ '.' :: stem.reverse).takeWhile (· != '.') = es.reverse := by
    rw [List.takeWhile_append_of_pos hpos]
    exact List.append_nil _
  unfold splitName
  rw [hreverse, hdrop, htake]
  dsimp only
  rw [if_neg hdots, List.reverse_reverse, List.reverse_reverse]

/-- A name has no extension, or one of the kind that `splitName_append_dot` is about. -/
theorem splitName_cases (name : List Char) :
    (splitName name).2 = [] ∨ ∃ c ∈ (splitName name).1, c ≠ '.' := by
  unfold splitName
  dsimp only
  split
  · exact .inl rfl
  · next before _ =>
    split
    · exact .inl rfl
    · next hdots =>
      rw [List.all_eq_true] at hdots
      push Not at hdots
      obtain ⟨c, hc, hne⟩ := hdots
      exact .inr ⟨c, List.mem_reverse.2 hc, fun heq => hne (beq_iff_eq.2 heq)⟩

/-- A path has no extension, or one with a single dot, at its start. -/
theorem extension_cases (path : String) :
    extension path = "" ∨ ∃ written, extension path = "." ++ written ∧ '.' ∉ written.toList := by
  show String.ofList (splitName _).2 = "" ∨ ∃ written, String.ofList (splitName _).2 = _ ∧ _
  unfold splitName
  dsimp only
  split
  · exact .inl rfl
  · split
    · exact .inl rfl
    · refine .inr ⟨String.ofList _, String.ofList_cons, ?_⟩
      rw [String.toList_ofList, List.mem_reverse]
      exact not_mem_takeWhile_ne '.' _

theorem name_append_slash (ds cs : List Char) :
    (splitLast (ds ++ '/' :: cs)).2 = (splitLast cs).2 := by
  have htake : ∀ bs, (bs ++ '/' :: ds.reverse).takeWhile (· != '/') = bs.takeWhile (· != '/') := by
    intro bs
    induction bs with
    | nil => rfl
    | cons b bs ih => rw [List.cons_append, List.takeWhile_cons, List.takeWhile_cons, ih]
  unfold splitLast
  rw [List.reverse_append, List.reverse_cons, List.append_assoc]
  exact congrArg List.reverse (htake cs.reverse)

/-- What a path is joined to leaves its extension alone. -/
theorem extension_join (folder name : String) : extension (join folder name) = extension name := by
  have hlast : (splitLast (join folder name).toList).2 = (splitLast name.toList).2 := by
    unfold join
    split_ifs with hstart hend
    · rfl
    · rw [String.toList_append]
      rcases Bool.or_eq_true_iff.1 hend with hempty | hslash
      · rw [String.isEmpty_iff.1 hempty]
        rfl
      · obtain ⟨ds, hds⟩ := List.getLast?_eq_some_iff.1 (of_decide_eq_true hslash)
        rw [hds, List.append_assoc]
        exact name_append_slash ds name.toList
    · rw [String.toList_append, String.toList_append, List.append_assoc]
      exact name_append_slash folder.toList name.toList
  unfold extension splitExtension
  dsimp only
  rw [hlast]

theorem extension_of_slashless {name : String} (h : Slashless name) :
    extension name = String.ofList (splitName name.toList).2 := by
  unfold extension splitExtension
  rw [splitLast_of_slashless h]

/-! ## Supported extensions -/

theorem isPlain_supported : ∀ word ∈ supportedExtensions, ∀ c ∈ word.toList, IsPlain c := by
  have hall : (supportedExtensions.all fun word => word.toList.all fun c => IsPlain c) = true := by
    decide
  simpa only [List.all_eq_true, decide_eq_true_eq] using hall

/-- Each supported extension has one dot, at its start. -/
theorem dot_supported : ∀ word ∈ supportedExtensions,
    ∃ ws, word.toList = '.' :: ws ∧ '.' ∉ ws := by
  intro word hword
  refine ⟨word.toList.tail, ?_⟩
  revert word
  decide

theorem toLower_eq_dot {c : Char} : c.toLower = '.' ↔ c = '.' := by
  have hsmall : ∀ n < 128, (Char.ofNat n).toLower = '.' ↔ Char.ofNat n = '.' := by decide
  by_cases hascii : c.toNat < 128
  · have hc := hsmall c.toNat hascii
    rwa [Char.ofNat_toNat] at hc
  · rw [toLower_of_not_ascii hascii]

theorem isSupported_eq_toLower (path : String) :
    isSupported path = true ↔ (extension path).toLower ∈ supportedExtensions := by
  unfold isSupported
  rw [List.contains_iff_mem]
  constructor
  · intro h
    rwa [(lower_eq_iff (isPlain_supported _ h)).1 rfl]
  · intro h
    rwa [(lower_eq_iff (isPlain_supported _ h)).2 rfl]

/-- A name that is made of something that is not just dots and of a supported extension, in small
or capital letters. -/
def IsPictureName (name : String) : Prop :=
  ∃ stem ext, name = stem ++ ext ∧ (∃ c ∈ stem.toList, c ≠ '.') ∧ ext.toLower ∈ supportedExtensions

/-- These names are the ones that files are taken for pictures by. -/
theorem isSupported_iff {name : String} (h : Slashless name) :
    isSupported name = true ↔ IsPictureName name := by
  rw [isSupported_eq_toLower, extension_of_slashless h]
  constructor
  · intro hext
    refine ⟨String.ofList (splitName name.toList).1, _, ?_, ?_, hext⟩
    · rw [← String.toList_inj]
      simp [splitName_append]
    · rw [String.toList_ofList]
      rcases splitName_cases name.toList with hnone | hstem
      · obtain ⟨ws, hword, -⟩ := dot_supported _ hext
        rw [hnone, toList_toLower, String.toList_ofList] at hword
        cases hword
      · exact hstem
  · rintro ⟨stem, ext, rfl, hstem, hext⟩
    obtain ⟨ws, hword, hws⟩ := dot_supported _ hext
    have hsmall : ext.toList.map Char.toLower = '.' :: ws := by
      rw [← hword, toList_toLower]
    obtain ⟨d, es, heq, hd, hes⟩ := List.map_eq_cons_iff.1 hsmall
    rw [toLower_eq_dot.1 hd] at heq
    have hdot : '.' ∉ es := fun hmem => hws (hes ▸ List.mem_map_of_mem hmem)
    have hsplit : splitName (stem ++ ext).toList = (stem.toList, ext.toList) := by
      rw [String.toList_append, heq]
      exact splitName_append_dot hdot hstem
    rw [hsplit, String.ofList_toList]
    exact hext

end ImageSizing.Path
