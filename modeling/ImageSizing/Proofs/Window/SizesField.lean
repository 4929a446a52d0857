import ImageSizing.Proofs.Text.Fields
import ImageSizing.Window.Basic

/-!
# The sizes field

The text of the sizes field is read piece by piece: a separator between two texts concatenates what
is read from them (`sizeItems_append`), and blanks at the ends of a text change nothing
(`sizeItems_pad`), also where a line end is a blank and a separator at once.  What is read are
proper items (`IsSizeItem`), and a text that spells proper items one after the other (`Spells`) is
read back as these (`parseSizes_spells`).
-/

namespace ImageSizing.Window

open Text

/-- A text that is an item of the sizes field: it is not empty, no blank is at its ends and no
separator in it. -/
structure IsSizeItem (item : String) : Prop where
  ne_empty : item ≠ ""
  head : ∀ c, item.toList.head? = some c → isBlank c = false
  last : ∀ c, item.toList.getLast? = some c → isBlank c = false
  unseparated : ∀ c ∈ item.toList, isSizeSeparator c = false

/-- A text of blanks, among them perhaps line ends. -/
def IsBlankText (s : String) : Prop := ∀ c ∈ s.toList, isBlank c = true

instance (s : String) : Decidable (IsBlankText s) :=
  decidable_of_iff (s.toList.all isBlank = true) List.all_eq_true

/-- A text that spells some items: blanks, an item with blanks around it, or two such texts with a
separator between them. -/
inductive Spells : List String → String → Prop
  | blank {s : String} (h : IsBlankText s) : Spells [] s
  | item {before item after : String} (hbefore : IsBlankText before) (hafter : IsBlankText after) :
      Spells [item] (before ++ item ++ after)
  | join {items later : List String} {s t : String} {c : Char} (hc : isSizeSeparator c = true)
      (hs : Spells items s) (ht : Spells later t) :
      Spells (items ++ later) (s ++ String.singleton c ++ t)

/-! ## Reading the characters of the field -/

/-- The items that the characters of the field stand for. -/
def sizeItems (cs : List Char) : List String :=
  ((fields isSizeSeparator cs).map fun cs => String.ofList (stripChars cs)).filter fun s => !s.isEmpty

theorem parseSizes_eq (text : String) : parseSizes text = sizeItems text.toList := rfl

variable {c : Char} {cs : List Char}

/-- What is read around a separator: the items before it, and those after it. -/
theorem sizeItems_append (hc : isSizeSeparator c = true) (a b : List Char) :
    sizeItems (a ++ c :: b) = sizeItems a ++ sizeItems b := by
  unfold sizeItems
  rw [fields_append hc, List.map_append, List.filter_append]

theorem sizeItems_of_unseparated (h : ∀ x ∈ cs, isSizeSeparator x = false) :
    sizeItems cs = [String.ofList (stripChars cs)].filter fun s => !s.isEmpty := by
  unfold sizeItems
  rw [fields_of_unseparated h]
  rfl

/-- A blank in front changes nothing: it is a separator after nothing, or it is removed. -/
theorem sizeItems_cons (hc : isBlank c = true) (cs : List Char) : sizeItems (c :: cs) = sizeItems cs := by
  cases hsep : isSizeSeparator c with
  | true => exact sizeItems_append hsep [] cs
  | false =>
    have hfree : ∀ {ds : List Char}, (∀ x ∈ ds, isSizeSeparator x = false) →
        sizeItems (c :: ds) = sizeItems ds := by
      intro ds hds
      rw [sizeItems_of_unseparated hds, sizeItems_of_unseparated (List.forall_mem_cons.2 ⟨hsep, hds⟩),
        stripChars_cons hc]
    rcases exists_first_separator isSizeSeparator cs with hnone | ⟨a, d, b, rfl, hd, ha⟩
    · exact hfree hnone
    · rw [sizeItems_append hd, ← List.cons_append, sizeItems_append hd, hfree ha]

/-- Nor does a blank at the end. -/
theorem sizeItems_concat (hc : isBlank c = true) (cs : List Char) :
    sizeItems (cs ++ [c]) = sizeItems cs := by
  cases hsep : isSizeSeparator c with
  | true => exact (sizeItems_append hsep cs []).trans (List.append_nil _)
  | false =>
    have hfree : ∀ {ds : List Char}, (∀ x ∈ ds, isSizeSeparator x = false) →
        sizeItems (ds ++ [c]) = sizeItems ds := by
      intro ds hds
      have hall : ∀ x ∈ ds ++ [c], isSizeSeparator x = false :=
        List.forall_mem_append.2 ⟨hds, List.forall_mem_singleton.2 hsep⟩
      rw [sizeItems_of_unseparated hds, sizeItems_of_unseparated hall, stripChars_concat hc]
    rcases exists_last_separator isSizeSeparator cs with hnone | ⟨a, d, b, rfl, hd, hb⟩
    · exact hfree hnone
    · rw [sizeItems_append hd, List.append_assoc, List.cons_append, sizeItems_append hd, hfree hb]

theorem sizeItems_pad {before after : List Char} (hbefore : ∀ x ∈ before, isBlank x = true)
    (hafter : ∀ x ∈ after, isBlank x = true) (cs : List Char) :
    sizeItems (before ++ cs ++ after) = sizeItems cs := by
  have hend : ∀ cs, sizeItems (cs ++ after) = sizeItems cs := by
    induction after with
    | nil => exact fun cs => by rw [List.append_nil]
    | cons x after ih =>
      rw [List.forall_mem_cons] at hafter
      intro cs
      rw [List.append_cons, ih hafter.2, sizeItems_concat hafter.1]
  induction before with
  | nil => exact hend cs
  | cons x before ih =>
    rw [List.forall_mem_cons] at hbefore
    rw [List.cons_append, List.cons_append, sizeItems_cons hbefore.1, ih hbefore.2]

/-! ## Items -/

/-- Whatever is read is a proper item. -/
theorem isSizeItem_of_mem {item : String} (h : item ∈ sizeItems cs) : IsSizeItem item := by
  obtain ⟨hmem, hne⟩ := List.mem_filter.1 h
  obtain ⟨f, hf, rfl⟩ := List.mem_map.1 hmem
  refine ⟨?_, ?_, ?_, ?_⟩
  · intro heq
    rw [heq] at hne
    exact absurd hne (by decide)
  · intro x hx
    rw [String.toList_ofList] at hx
    exact stripChars_head hx
  · intro x hx
    rw [String.toList_ofList] at hx
    exact stripChars_last hx
  · intro x hx
    rw [String.toList_ofList] at hx
    exact unseparated_of_mem_fields hf x (mem_of_mem_stripChars hx)

/-- A proper item is read as it is. -/
theorem sizeItems_of_item {item : String} (h : IsSizeItem item) : sizeItems item.toList = [item] := by
  rw [sizeItems_of_unseparated h.unseparated, stripChars_of_ends h.head h.last, String.ofList_toList]
  have hne : (!item.isEmpty) = true := by simpa using h.ne_empty
  exact List.filter_cons_of_pos hne

theorem parseSizes_append (hc : isSizeSeparator c = true) (a b : String) :
    parseSizes (a ++ String.singleton c ++ b) = parseSizes a ++ parseSizes b := by
  have htext : (a ++ String.singleton c ++ b).toList = a.toList ++ c :: b.toList := by simp
  rw [parseSizes_eq, htext, sizeItems_append hc, parseSizes_eq, parseSizes_eq]

/-- A text that spells proper items is read as these. -/
theorem parseSizes_spells {items : List String} {s : String} (h : Spells items s)
    (hitems : ∀ item ∈ items, IsSizeItem item) : parseSizes s = items := by
  induction h with
  | blank hblank => exact sizeItems_pad (List.forall_mem_nil _) hblank []
  | @item before item after hbefore hafter =>
    have htext : (before ++ item ++ after).toList = before.toList ++ item.toList ++ after.toList := by
      simp
    rw [parseSizes_eq, htext, sizeItems_pad hbefore hafter]
    exact sizeItems_of_item (List.forall_mem_singleton.1 hitems)
  | join hc hs ht ihs iht =>
    rw [List.forall_mem_append] at hitems
    rw [parseSizes_append hc, ihs hitems.1, iht hitems.2]

/-! ## Joined items -/

theorem isBlankText_append {s t : String} (hs : IsBlankText s) (ht : IsBlankText t) :
    IsBlankText (s ++ t) := by
  intro x hx
  rw [String.toList_append, List.mem_append] at hx
  rcases hx with hx | hx
  · exact hs x hx
  · exact ht x hx

/-- Blanks in front spell nothing. -/
theorem Spells.pad {items : List String} {s t : String} (hs : IsBlankText s) (h : Spells items t) :
    Spells items (s ++ t) := by
  induction h with
  | blank hblank => exact .blank (isBlankText_append hs hblank)
  | item hbefore hafter =>
    rw [← String.append_assoc, ← String.append_assoc]
    exact .item (isBlankText_append hs hbefore) hafter
  | join hc hfirst hlater ih _ =>
    rw [← String.append_assoc, ← String.append_assoc]
    exact .join hc ih hlater

/-- Items joined by a separator with blanks around it are spelled one after the other. -/
theorem spells_intercalate {before after : String} (hbefore : IsBlankText before)
    (hafter : IsBlankText after) (hc : isSizeSeparator c = true) (items : List String) :
    Spells items ((before ++ String.singleton c ++ after).intercalate items) := by
  have hempty : IsBlankText "" := List.forall_mem_nil _
  induction items with
  | nil => exact .blank hempty
  | cons item items ih =>
    cases items with
    | nil =>
      have hitem : Spells [item] ("" ++ item ++ "") := .item hempty hempty
      rw [String.empty_append, String.append_empty] at hitem
      rw [String.intercalate_singleton]
      exact hitem
    | cons next items =>
      have hitem : Spells [item] ("" ++ item ++ before) := .item hempty hbefore
      rw [String.empty_append] at hitem
      rw [String.intercalate_cons_cons]
      have hjoined := Spells.join hc hitem (ih.pad hafter)
      simpa only [String.append_assoc, List.singleton_append] using hjoined

/-- What is read from the sizes field.  Every item is proper; a separator between two texts
concatenates what is read from them; and every text that spells the items that were read, with
blanks, line ends and separators of any kind in between, is read as the same items, in particular
their joining by one separator with blanks around it.  The same holds of all proper items. -/
theorem parseSizes_laws (text : String) :
    (∀ item ∈ parseSizes text, IsSizeItem item) ∧
    (∀ a b c, isSizeSeparator c = true →
      parseSizes (a ++ String.singleton c ++ b) = parseSizes a ++ parseSizes b) ∧
    (∀ joined, Spells (parseSizes text) joined → parseSizes joined = parseSizes text) ∧
    (∀ before c after, IsBlankText before → isSizeSeparator c = true → IsBlankText after →
      parseSizes ((before ++ String.singleton c ++ after).intercalate (parseSizes text)) =
        parseSizes text) ∧
    ∀ items joined, (∀ item ∈ items, IsSizeItem item) → Spells items joined →
      parseSizes joined = items := by
  have hitems : ∀ item ∈ parseSizes text, IsSizeItem item := fun item h => isSizeItem_of_mem h
  refine ⟨hitems, fun a b c hc => parseSizes_append hc a b, ?_, ?_, ?_⟩
  · intro joined hjoined
    exact parseSizes_spells hjoined hitems
  · intro before c after hbefore hc hafter
    exact parseSizes_spells (spells_intercalate hbefore hafter hc _) hitems
  · intro items joined hproper hjoined
    exact parseSizes_spells hjoined hproper

/-- A line end is a separator between items and a blank around them. -/
theorem parseSizes_laws_lines :
    parseSizes "320,\n 50% ;;200X100\u00A0" = ["320", "50%", "200X100"] ∧
    parseSizes ("320" ++ String.singleton '\n' ++ "\t50%\n") = ["320"] ++ ["50%"] ∧
    parseSizes ("\n;\u2003".intercalate ["320", "50%", "200X100"]) = ["320", "50%", "200X100"] := by
  have hread : parseSizes "320,\n 50% ;;200X100\u00A0" = ["320", "50%", "200X100"] := by
    decide +kernel
  obtain ⟨-, happend, -, hjoin, -⟩ := parseSizes_laws "320,\n 50% ;;200X100\u00A0"
  refine ⟨hread, ?_, ?_⟩
  · have hends : parseSizes "320" = ["320"] ∧ parseSizes "\t50%\n" = ["50%"] := by decide +kernel
    rw [happend "320" "\t50%\n" '\n' (by decide), hends.1, hends.2]
  · have hjoined := hjoin "\n" ';' "\u2003" (by decide) (by decide) (by decide)
    rw [hread] at hjoined
    exact hjoined

end ImageSizing.Window
