import ImageSizing.Proofs.Template.Layouts

/-!
# Filled templates without a slash

The pieces of a template are made of its characters, and its fields lead to what they name or to
an item of it.  So a template without a slash that is filled with values without one comes to a
text without one (`slashless_fill`).  Two cases stand apart: a field can write a whole number as
the character of that code point, and a slash is such a character (`SpellsSlash`); and a field
can ask for an attribute, which may be anything (`LooksUpSlash`).
-/

namespace ImageSizing.Template

open Text

/-! ## Form -/

/-- The characters that a piece may write itself are among those of a text. -/
def Piece.Within (cs : List Char) : Piece → Prop
  | .literal text => text ⊆ cs
  | .field _ _ layout _ => layout ⊆ cs

theorem Piece.Within.mono {piece : Piece} {cs ds : List Char} (h : piece.Within cs)
    (hsub : cs ⊆ ds) : piece.Within ds := by
  cases piece with
  | literal text => exact List.Subset.trans h hsub
  | field name conversion layout nested => exact List.Subset.trans h hsub

theorem subset_of_takeName {inIndex : Bool} {cs name rest : List Char} {stop : Char}
    (h : takeName inIndex cs = .ok (name, stop, rest)) : rest ⊆ cs := by
  induction cs generalizing inIndex name with
  | nil => cases h
  | cons c cs ih =>
    have hnext : ∀ b, (takeName b cs >>= fun r => pure (c :: r.1, r.2.1, r.2.2)) =
        Except.ok (name, stop, rest) → rest ⊆ c :: cs := by
      intro b hb
      obtain ⟨⟨name', stop', rest'⟩, htake, hb⟩ := bind_eq_ok hb
      cases hb
      exact List.subset_cons_of_subset c (ih htake)
    unfold takeName at h
    split_ifs at h
    · exact hnext _ h
    · cases h
      exact List.subset_cons_self _ _
    · exact hnext _ h

theorem subset_of_takeLayout {depth : Nat} {cs layout rest : List Char} {nested : Bool}
    (h : takeLayout depth cs = .ok (layout, nested, rest)) : layout ⊆ cs ∧ rest ⊆ cs := by
  induction cs generalizing depth layout nested with
  | nil => cases h
  | cons c cs ih =>
    have hnext : ∀ (b : Nat) (flag : Bool → Bool),
        (takeLayout b cs >>= fun r => pure (c :: r.1, flag r.2.1, r.2.2)) =
        Except.ok (layout, nested, rest) → layout ⊆ c :: cs ∧ rest ⊆ c :: cs := by
      intro b flag hb
      obtain ⟨⟨layout', nested', rest'⟩, htake, hb⟩ := bind_eq_ok hb
      cases hb
      obtain ⟨hlayout, hrest⟩ := ih htake
      exact ⟨List.cons_subset_cons c hlayout, List.subset_cons_of_subset c hrest⟩
    unfold takeLayout at h
    split_ifs at h
    · exact hnext _ (fun _ => true) h
    · split at h
      · cases h
        exact ⟨List.nil_subset _, List.subset_cons_self _ _⟩
      · exact hnext _ id h
    · exact hnext _ id h

theorem within_of_withLayout {name cs ds rest : List Char} {conversion : Option Char}
    {piece : Piece} (hcs : cs ⊆ ds)
    (h : withLayout name conversion cs = .ok (piece, rest)) : piece.Within ds ∧ rest ⊆ ds := by
  obtain ⟨⟨layout, nested, rest'⟩, htake, h⟩ := bind_eq_ok h
  cases h
  obtain ⟨hlayout, hrest⟩ := subset_of_takeLayout htake
  exact ⟨List.Subset.trans hlayout hcs, List.Subset.trans hrest hcs⟩

theorem within_of_takeField {cs rest : List Char} {piece : Piece}
    (h : takeField cs = .ok (piece, rest)) : piece.Within cs ∧ rest ⊆ cs := by
  obtain ⟨⟨name, stop, after⟩, htake, h⟩ := bind_eq_ok h
  have hafter := subset_of_takeName htake
  dsimp only at h
  split_ifs at h
  · cases h
    exact ⟨List.nil_subset _, hafter⟩
  · exact within_of_withLayout hafter h
  · split at h
    · cases h
    · exact within_of_withLayout (List.nil_subset _) h
    · rename_i c d after'
      have hafter' : after' ⊆ cs := fun x hx =>
        hafter (List.mem_cons_of_mem c (List.mem_cons_of_mem d hx))
      split_ifs at h
      · cases h
        exact ⟨List.nil_subset _, hafter'⟩
      · exact within_of_withLayout hafter' h

theorem within_of_takePiece {cs rest : List Char} {ps : List Piece}
    (h : takePiece cs = .ok (ps, rest)) : (∀ p ∈ ps, p.Within cs) ∧ rest ⊆ cs := by
  have htext : (cs.takeWhile fun c => !isBrace c) ⊆ cs := (List.takeWhile_sublist _).subset
  have hdrop : (cs.dropWhile fun c => !isBrace c) ⊆ cs := (List.dropWhile_sublist _).subset
  unfold takePiece at h
  dsimp only at h
  split at h
  · cases h
    exact ⟨List.forall_mem_singleton.2 htext, List.nil_subset _⟩
  · cases h
  · rename_i c d after hafter
    rw [hafter] at hdrop
    have htail : d :: after ⊆ cs := List.Subset.trans (List.subset_cons_self c _) hdrop
    split_ifs at h
    · cases h
      refine ⟨List.forall_mem_singleton.2 (List.append_subset.2 ⟨htext, ?_⟩), ?_⟩
      · exact List.cons_subset.2 ⟨hdrop List.mem_cons_self, List.nil_subset _⟩
      · exact List.Subset.trans (List.subset_cons_self d _) htail
    · obtain ⟨⟨piece, rest'⟩, htake, h⟩ := bind_eq_ok h
      cases h
      obtain ⟨hpiece, hrest⟩ := within_of_takeField htake
      refine ⟨List.forall_mem_cons.2 ⟨htext, List.forall_mem_singleton.2 (hpiece.mono htail)⟩, ?_⟩
      exact List.Subset.trans hrest htail

theorem within_of_piecesWithin (fuel : Nat) (cs : List Char) :
    ∀ p ∈ (piecesWithin fuel cs).1, p.Within cs := by
  induction fuel generalizing cs with
  | zero => exact List.forall_mem_nil _
  | succ fuel ih =>
    cases cs with
    | nil => exact List.forall_mem_nil _
    | cons c cs =>
      unfold piecesWithin
      split
      · exact List.forall_mem_nil _
      · rename_i ps rest htake
        obtain ⟨hps, hrest⟩ := within_of_takePiece htake
        intro p hp
        rcases List.mem_append.1 hp with hp | hp
        · exact hps p hp
        · exact (ih rest p hp).mono hrest

/-- The pieces of a template are made of its characters. -/
theorem within_of_pieces (cs : List Char) : ∀ p ∈ (pieces cs).1, p.Within cs :=
  within_of_piecesWithin _ cs

/-! ## Look-ups -/

variable {attributes : Attributes} {fields : List (String × Value)}

/-- Whether some look-ups come to one by name. -/
def asksForAttribute : Nat → List Char → Bool
  | 0, _ => false
  | _, [] => false
  | fuel + 1, cs =>
    match takeLookup cs with
    | .ok (.byName _, _) => true
    | .ok (.byIndex _, rest) => asksForAttribute fuel rest
    | .error _ => false

/-- Without an attribute on the way there is an item at the end. -/
theorem slashless_follow {fuel : Nat} {v : Value} {x : Found} {cs : List Char} (hv : v.Slashless)
    (hnone : asksForAttribute fuel cs = false) (h : follow attributes fuel v cs = .ok x) :
    ∃ w, x = .value w ∧ w.Slashless := by
  induction fuel generalizing v cs with
  | zero =>
    cases h
    exact ⟨v, rfl, hv⟩
  | succ fuel ih =>
    cases cs with
    | nil =>
      cases h
      exact ⟨v, rfl, hv⟩
    | cons c cs =>
      obtain ⟨⟨lookup, rest⟩, htake, h⟩ := bind_eq_ok h
      unfold asksForAttribute at hnone
      rw [htake] at hnone
      cases lookup with
      | byName name => cases hnone
      | byIndex index =>
        obtain ⟨next, hnext, h⟩ := bind_eq_ok h
        exact ih (slashless_itemUnder hv hnext) hnone h

/-- Whether the name of a field asks for an attribute. -/
def namesAttribute (name : List Char) : Bool := asksForAttribute name.length (lookupsOf name)

/-- A field that asks for no attribute leads to an item of what it names. -/
theorem slashless_find {name : List Char} {x : Found}
    (hfields : ∀ f ∈ fields, f.1.toList = keyOf name → f.2.Slashless)
    (hnone : namesAttribute name = false) (h : find attributes fields name = .ok x) :
    ∃ w, x = .value w ∧ w.Slashless := by
  obtain ⟨i, _, h⟩ := bind_eq_ok h
  cases i with
  | some i => cases h
  | none =>
    dsimp only at h
    split_ifs at h
    split at h
    · cases h
    · rename_i f hf
      have hfound := List.find?_some hf
      have hkey : f.1 = String.ofList (keyOf name) := beq_iff_eq.1 hfound
      refine slashless_follow (hfields f (List.mem_of_find?_eq_some hf) ?_) hnone h
      rw [hkey, String.toList_ofList]

/-! ## Writing -/

theorem slashless_convert {conversion : Option Char} {v : Value} {x : Found} (hv : v.Slashless)
    (h : convert conversion (.value v) = .ok x) : ∃ w, x = .value w ∧ w.Slashless := by
  unfold convert at h
  split at h
  · cases h
    exact ⟨v, rfl, hv⟩
  · cases h
    exact ⟨v, rfl, hv⟩
  · obtain ⟨s, hs, h⟩ := bind_eq_ok h
    cases h
    exact ⟨_, rfl, Value.slashless_str.2 (Value.slashless_of_display? hv hs)⟩
  · obtain ⟨s, hs, h⟩ := bind_eq_ok h
    cases h
    exact ⟨_, rfl, Value.slashless_str.2 (Value.slashless_of_quoted? hv hs)⟩
  · obtain ⟨s, hs, h⟩ := bind_eq_ok h
    cases h
    exact ⟨_, rfl, Value.slashless_str.2 (slashless_asciiOnly (Value.slashless_of_quoted? hv hs))⟩
  · cases h

/-- Whether a field of a template, or one inside a layout, names a key. -/
def mentions (key : String) : Nat → List Char → Bool
  | 0, _ => false
  | depth + 1, cs => (pieces cs).1.any fun
    | .literal _ => false
    | .field name _ layout nested => keyOf name == key.toList || nested && mentions key depth layout

theorem mentions_of_field {key : String} {depth : Nat} {cs name layout : List Char}
    {conversion : Option Char} {nested : Bool}
    (hpiece : Piece.field name conversion layout nested ∈ (pieces cs).1)
    (h : keyOf name = key.toList ∨ nested = true ∧ mentions key depth layout = true) :
    mentions key (depth + 1) cs = true := by
  refine List.any_eq_true.2 ⟨_, hpiece, ?_⟩
  dsimp only
  rwa [Bool.or_eq_true, Bool.and_eq_true, beq_iff_eq]

/-- A field of a template, or one inside a layout, leads to the number of the code point of a
slash and writes it as a character. -/
def SpellsSlash (attributes : Attributes) (fields : List (String × Value)) :
    Nat → List Char → Prop
  | 0, _ => False
  | depth + 1, cs => ∃ name conversion layout nested,
      Piece.field name conversion layout nested ∈ (pieces cs).1 ∧
        (nested = true ∧ SpellsSlash attributes fields depth layout ∨
          ∃ x written, find attributes fields name = .ok x ∧
            convert conversion x = .ok (.value (.int '/'.toNat)) ∧
            (if nested then fillWithin attributes fields depth layout else pure layout) =
              .ok written ∧ AsksForCharacter written)

/-- A field of a template, or one inside a layout, asks for an attribute, and a slash is in what
is written of it. -/
def LooksUpSlash (attributes : Attributes) (fields : List (String × Value)) :
    Nat → List Char → Prop
  | 0, _ => False
  | depth + 1, cs => ∃ name conversion layout nested,
      Piece.field name conversion layout nested ∈ (pieces cs).1 ∧
        (nested = true ∧ LooksUpSlash attributes fields depth layout ∨
          namesAttribute name = true ∧ ∃ written,
            writePiece attributes fields (fillWithin attributes fields depth)
              (.field name conversion layout nested) = .ok written ∧ '/' ∈ written)

/-- A field with neither an attribute nor a layout, or no field. -/
def Piece.isBare : Piece → Bool
  | .literal _ => true
  | .field name _ layout nested => !namesAttribute name && layout.isEmpty && !nested

/-- The fields of a template have neither attributes nor layouts. -/
def IsBare (cs : List Char) : Prop := ∀ piece ∈ (pieces cs).1, piece.isBare = true

theorem IsBare.field {cs name layout : List Char} {conversion : Option Char} {nested : Bool}
    (h : IsBare cs) (hpiece : Piece.field name conversion layout nested ∈ (pieces cs).1) :
    namesAttribute name = false ∧ layout = [] ∧ nested = false := by
  have hbare := h _ hpiece
  unfold Piece.isBare at hbare
  simpa [and_assoc] using hbare

/-- What goes into a field that is written: what it leads to, its conversion, and its layout. -/
theorem writePiece_field_eq_ok {inner : List Char → Except Fault (List Char)} {name : List Char}
    {conversion : Option Char} {layout written : List Char} {nested : Bool}
    (h : writePiece attributes fields inner (.field name conversion layout nested) = .ok written) :
    ∃ x y filled, find attributes fields name = .ok x ∧ convert conversion x = .ok y ∧
      (if nested then inner layout else pure layout) = .ok filled ∧
        y.write filled = .ok written := by
  obtain ⟨x, hx, h⟩ := bind_eq_ok h
  obtain ⟨y, hy, h⟩ := bind_eq_ok h
  have hfind : find attributes fields name = .ok x := by
    cases hfind : find attributes fields name <;> rw [hfind] at hx <;> cases hx
    rfl
  cases nested with
  | false => exact ⟨x, y, layout, hfind, hy, rfl, h⟩
  | true =>
    obtain ⟨filled, hfilled, h⟩ := bind_eq_ok h
    exact ⟨x, y, filled, hfind, hy, hfilled, h⟩

theorem slash_not_mem_writeAll {inner : List Char → Except Fault (List Char)}
    {fault : Option TemplateFault} {ps : List Piece} {written : List Char}
    (hps : ∀ p ∈ ps, ∀ cs, writePiece attributes fields inner p = .ok cs → '/' ∉ cs)
    (h : writeAll attributes fields inner fault ps = .ok written) : '/' ∉ written := by
  induction ps generalizing written with
  | nil =>
    unfold writeAll at h
    split at h <;> cases h
    exact List.not_mem_nil
  | cons p ps ih =>
    obtain ⟨cs, hcs, h⟩ := bind_eq_ok h
    obtain ⟨ds, hds, h⟩ := bind_eq_ok h
    cases h
    have hp := hps p List.mem_cons_self cs hcs
    exact slash_not_mem_append hp
      (ih (fun p hp => hps p (List.mem_cons_of_mem _ hp)) hds)

/-- A template that is written out, by induction on how deep its layouts hold fields. -/
theorem slash_not_mem_fillWithin {depth : Nat} {cs written : List Char}
    (hfields : ∀ f ∈ fields, mentions f.1 depth cs = true → f.2.Slashless) (hcs : '/' ∉ cs)
    (hspells : ¬SpellsSlash attributes fields depth cs)
    (hlooks : ¬LooksUpSlash attributes fields depth cs)
    (h : fillWithin attributes fields depth cs = .ok written) : '/' ∉ written := by
  induction depth generalizing cs written with
  | zero => cases h
  | succ depth ih =>
    refine slash_not_mem_writeAll (fun piece hpiece ds hds => ?_) h
    have hwithin := within_of_pieces cs piece hpiece
    cases piece with
    | literal text =>
      cases hds
      exact fun hmem => hcs (hwithin hmem)
    | field name conversion layout nested =>
      cases hnames : namesAttribute name with
      | true =>
        exact fun hmem => hlooks ⟨name, conversion, layout, nested, hpiece,
          .inr ⟨hnames, ds, hds, hmem⟩⟩
      | false =>
        obtain ⟨x, y, filled, hfind, hy, hfilled, hds⟩ := writePiece_field_eq_ok hds
        obtain ⟨v, rfl, hv⟩ := slashless_find (fun f hf hkey =>
          hfields f hf (mentions_of_field hpiece (.inl hkey.symm))) hnames hfind
        obtain ⟨w, rfl, hw⟩ := slashless_convert hv hy
        refine slash_not_mem_writeValue hw ?_ ?_ hds
        · cases nested with
          | false =>
            cases hfilled
            exact fun hmem => hcs (hwithin hmem)
          | true =>
            refine ih (fun f hf hinner => ?_) (fun hmem => hcs (hwithin hmem))
              (fun hinner => ?_) (fun hinner => ?_) hfilled
            · exact hfields f hf (mentions_of_field hpiece (.inr ⟨rfl, hinner⟩))
            · exact hspells ⟨name, conversion, layout, true, hpiece, .inl ⟨rfl, hinner⟩⟩
            · exact hlooks ⟨name, conversion, layout, true, hpiece, .inl ⟨rfl, hinner⟩⟩
        · rintro hasks rfl
          exact hspells ⟨name, conversion, layout, nested, hpiece,
            .inr ⟨.value v, filled, hfind, hy, hfilled, hasks⟩⟩

/-- A template without a slash is filled without one if the values that it mentions have none,
unless it spells one out or finds one in an attribute. -/
theorem slashless_fill {template s : String}
    (hfields : ∀ f ∈ fields, mentions f.1 2 template.toList = true → f.2.Slashless)
    (htemplate : Text.Slashless template)
    (hspells : ¬SpellsSlash attributes fields 2 template.toList)
    (hlooks : ¬LooksUpSlash attributes fields 2 template.toList)
    (h : fill attributes fields template = .ok s) : Text.Slashless s := by
  obtain ⟨written, hwritten, h⟩ := bind_eq_ok h
  cases h
  exact slashless_ofList.2 (slash_not_mem_fillWithin hfields htemplate hspells hlooks hwritten)

end ImageSizing.Template
