import Mathlib.Data.List.Basic
import ImageSizing.Proofs.Engine.Elaboration
import ImageSizing.Proofs.Text.Scanning

/-!
# Sizes written as pairs

A text with the separator in it is a width and a height, what stands before and after the one
occurrence that a scan from the left meets, and it is treated as the mapping with these two
entries would be.  A text with more than one occurrence is rejected by everything that takes a
size; no part of it is dropped (`elaborate_pair`).
-/

namespace ImageSizing

namespace Size

def pair (width height : String) : Mapping := [(.str "width", .str width), (.str "height", .str height)]

variable {cfg : EngineConfig} {sep s : String} {ne : sep ≠ ""}

theorem toList_ne_nil (ne : sep ≠ "") : sep.toList ≠ [] := mt String.toList_eq_nil_iff.1 ne

theorem entries_str (hsep : cfg.separator = .text sep ne) :
    entries cfg (.str s) =
      match Text.cut? sep.toList s.toList with
      | some parts => ofPair sep s parts
      | none => pure (widthOnly (.str s)) := by
  show ofText cfg s = _
  unfold ofText
  cases h : Text.cut? sep.toList s.toList <;> simp only [hsep, h]

/-- Two pieces are a width and a height. -/
theorem canonical_pair (hsep : cfg.separator = .text sep ne) {a b : List Char}
    (hscan : Text.Scans sep.toList s.toList [a, b]) :
    canonical cfg (.str s) = canonical cfg (.map (pair (String.ofList a) (String.ofList b))) := by
  have hne := toList_ne_nil ne
  obtain ⟨hcut, hlast⟩ : Text.cut? sep.toList s.toList = some (a, b) ∧
      Text.cut? sep.toList b = none := by
    rcases hscan.cases hne with ⟨_, hpieces⟩ | ⟨a, b, later, hcut, hlater, hpieces⟩
    · cases hpieces
    · cases hpieces
      rcases hlater.cases hne with ⟨hlast, hpieces⟩ | ⟨_, _, _, _, hafter, hpieces⟩
      · cases hpieces
        exact ⟨hcut, hlast⟩
      · cases hpieces
        exact absurd rfl hafter.ne_nil
  unfold canonical
  rw [entries_str hsep, hcut]
  show (ofPair sep s (a, b) >>= fun m => pure (withSnapshot m)) = _
  unfold ofPair
  rw [hlast]
  rfl

/-- More than two pieces are rejected. -/
theorem canonical_of_more (hsep : cfg.separator = .text sep ne) {pieces : List (List Char)}
    (hscan : Text.Scans sep.toList s.toList pieces) (hmore : 2 < pieces.length) :
    canonical cfg (.str s) = .fatal (.malformedPair s sep) := by
  have hne := toList_ne_nil ne
  rcases hscan.cases hne with ⟨_, rfl⟩ | ⟨a, b, later, hcut, hlater, rfl⟩
  · simp at hmore
  · rcases hlater.cases hne with ⟨_, rfl⟩ | ⟨a', b', after, hcut', _, rfl⟩
    · simp at hmore
    · unfold canonical
      rw [entries_str hsep, hcut]
      show (ofPair sep s (a, b) >>= fun m => pure (withSnapshot m)) = _
      unfold ofPair
      rw [hcut']
      rfl

end Size

namespace Engine

variable {e : Engine} {sep s : String} {ne : sep ≠ ""} {a b : List Char} {err : SizingError}

/-! ## Two pieces -/

theorem elaborate_of_two (hsep : e.config.separator = .text sep ne)
    (hscan : Text.Scans sep.toList s.toList [a, b]) :
    e.elaborate (.str s) =
      pure (Size.withSnapshot (Size.pair (String.ofList a) (String.ofList b))) :=
  Size.canonical_pair hsep hscan

theorem toPixels_of_two (hsep : e.config.separator = .text sep ne)
    (hscan : Text.Scans sep.toList s.toList [a, b]) (real : RealDimension) :
    e.toPixels (.str s) real =
      e.toPixels (.map (Size.pair (String.ofList a) (String.ofList b))) real := by
  have htext : ∀ w h fs o x, Value.str s ≠ .spec w h fs o x := nofun
  have hmapping : ∀ w h fs o x,
      Value.map (Size.pair (String.ofList a) (String.ofList b)) ≠ .spec w h fs o x := nofun
  refine toPixels_of_normalize_eq ?_ real
  unfold normalize
  rw [Size.normalize_of_not_spec htext, Size.normalize_of_not_spec hmapping,
    Size.canonical_pair hsep hscan]

/-! ## Rejected texts -/

theorem normalize_of_fatal (h : e.elaborate (.str s) = .fatal err) :
    e.normalize (.str s) = .fatal err := by
  have hraw : ∀ w h fs o x, Value.str s ≠ .spec w h fs o x := nofun
  unfold normalize
  rw [Size.normalize_of_not_spec hraw]
  show (e.elaborate (.str s) >>= fun m => Size.normalizeCanonical e.config e.registry m) = _
  rw [h]
  rfl

theorem calculate_of_fatal (h : e.elaborate (.str s) = .fatal err) (real : RealDimension) :
    e.calculate (.str s) real = .fatal err := by
  unfold calculate calculateWith
  rw [normalize_of_fatal h]
  rfl

theorem toPixels_of_fatal (h : e.elaborate (.str s) = .fatal err) (real : RealDimension) :
    e.toPixels (.str s) real = .fatal err := by
  unfold toPixels
  rw [calculate_of_fatal h]
  rfl

/-- A text with the separator in it has a canonical form exactly if a scan from the left meets one
occurrence.  Then the width and the height are what stands before and after it, the separator in
neither, and the pixels of the text are those of the mapping of the two, failures and log included.
With more occurrences the text is rejected as a whole. -/
theorem elaborate_pair {e : Engine} {sep s : String} {ne : sep ≠ ""}
    (hsep : e.config.separator = .text sep ne) (h : sep.toList <:+: s.toList) :
    ∃ pieces, Text.Scans sep.toList s.toList pieces ∧
      (∀ others, Text.Scans sep.toList s.toList others → others = pieces) ∧
      ((∃ m, (e.elaborate (.str s)).result = .ok m) ↔ pieces.length = 2) ∧
      (∀ m, (e.elaborate (.str s)).result = .ok m → ∃ width height : String,
        m.get "width" = .str width ∧ m.get "height" = .str height ∧ width ++ sep ++ height = s ∧
        ¬sep.toList <:+: width.toList ∧ ¬sep.toList <:+: height.toList ∧
        ∀ real, e.toPixels (.str s) real = e.toPixels (.map (Size.pair width height)) real) ∧
      (2 < pieces.length →
        (SizingError.malformedPair s sep).kind = .validation ∧
        e.elaborate (.str s) = .fatal (.malformedPair s sep) ∧
        e.normalize (.str s) = .fatal (.malformedPair s sep) ∧
        ∀ real, e.calculate (.str s) real = .fatal (.malformedPair s sep) ∧
          e.toPixels (.str s) real = .fatal (.malformedPair s sep)) := by
  have hne := Size.toList_ne_nil ne
  obtain ⟨pieces, hscan⟩ := Text.exists_scans hne s.toList
  have htwo : 2 ≤ pieces.length := hscan.two_le_length hne h
  have hmore : 2 < pieces.length → e.elaborate (.str s) = .fatal (.malformedPair s sep) :=
    fun hlength => Size.canonical_of_more hsep hscan hlength
  have hlength : ∀ m, (e.elaborate (.str s)).result = .ok m → pieces.length = 2 := by
    intro m hm
    rcases Nat.eq_or_lt_of_le htwo with hlength | hlength
    · exact hlength.symm
    · rw [hmore hlength] at hm
      cases hm
  refine ⟨pieces, hscan, fun others => hscan.unique hne, ⟨fun ⟨m, hm⟩ => hlength m hm, ?_⟩, ?_, ?_⟩
  · intro hlength
    obtain ⟨a, b, rfl⟩ := List.length_eq_two.1 hlength
    exact ⟨_, congrArg Logged.result (elaborate_of_two hsep hscan)⟩
  · intro m hm
    obtain ⟨a, b, rfl⟩ := List.length_eq_two.1 (hlength m hm)
    rw [elaborate_of_two hsep hscan] at hm
    cases hm
    refine ⟨String.ofList a, String.ofList b, rfl, rfl, ?_, ?_, ?_, toPixels_of_two hsep hscan⟩
    · have hjoined := hscan.intercalate
      rw [List.intercalate_cons_cons, List.intercalate_singleton] at hjoined
      rw [← String.toList_inj, String.toList_append, String.toList_append, String.toList_ofList,
        String.toList_ofList, hjoined]
    · rw [String.toList_ofList]
      exact hscan.free hne a (by simp)
    · rw [String.toList_ofList]
      exact hscan.free hne b (by simp)
  · intro hlength
    have hfatal := hmore hlength
    exact ⟨rfl, hfatal, normalize_of_fatal hfatal, fun real =>
      ⟨calculate_of_fatal hfatal real, toPixels_of_fatal hfatal real⟩⟩

/-- An engine with a separator that can overlap itself. -/
def doublyCrossed : Engine := { config := { EngineConfig.standard with separator := .text "XX" } }

/-- Of three letters the first two are the separator, and the third one belongs to the height. -/
theorem elaborate_pair_overlapping :
    "XX".toList <:+: "10XXX5".toList ∧
      (∃ m, (doublyCrossed.elaborate (.str "10XXX5")).result = .ok m) ∧
      ¬"XX".toList <:+: "X5".toList ∧
      ∀ real, doublyCrossed.toPixels (.str "10XXX5") real =
        doublyCrossed.toPixels (.map (Size.pair "10" "X5")) real := by
  have hoccurs : "XX".toList <:+: "10XXX5".toList := ⟨['1', '0'], ['X', '5'], rfl⟩
  have hscan : Text.Scans "XX".toList "10XXX5".toList ["10".toList, "X5".toList] :=
    .skip (by decide) (.skip (by decide) (.hit (.skip (by decide) (.skip (by decide) .done))))
  obtain ⟨pieces, _, hunique, hok, hpair, _⟩ := elaborate_pair (e := doublyCrossed) rfl hoccurs
  have hlength : pieces.length = 2 := by rw [← hunique _ hscan]; rfl
  obtain ⟨m, hm⟩ := hok.2 hlength
  obtain ⟨width, height, hw, hh, -, -, hfree, hpixels⟩ := hpair m hm
  cases hm
  cases hw
  cases hh
  exact ⟨hoccurs, hok.2 hlength, hfree, hpixels⟩

end Engine

end ImageSizing
