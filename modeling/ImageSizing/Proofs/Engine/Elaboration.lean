import ImageSizing.Engine.Basic
import ImageSizing.Proofs.Scaling.Policies
import ImageSizing.Proofs.Size.Elaboration

/-!
# Elaborated sizes

The normal form of a size can be elaborated, and the mapping that this gives can be
calculated in its place.  The two agree, in their normal forms and in every size in pixels,
if the normal form survives (`elaborate_survives_iff`).  For a size that a user writes down
that is the case unless its queue or its snapshot is empty or one of its axes is invalid.
An empty queue, which was asked for, comes back as the default policy, and an invalid axis as
one that was left out, so that a size which is not to be scaled is scaled, and one that is
rejected may pass.
-/

namespace ImageSizing

namespace Size

variable {cfg : EngineConfig} {r : Registry} {raw : Value} {s : SizeSpec}

/-- What the normal form of a plain size comes back as. -/
theorem comeBack_plain (hkeys : raw.HasDistinctKeys) (hplain : raw.isPlain = true)
    (h : (normalize cfg r raw).result = .ok s) :
    s.comeBack cfg = ⟨s.width.orUnspecified, s.height.orUnspecified,
      if s.queue.isEmpty then [.ofPolicy cfg.defaultPolicy] else s.queue,
      if s.original.isEmpty then Value.copyEntries (s.elaborated.erase "original") else s.original,
      s.extras⟩ := by
  have hproper := proper_plain hkeys hplain h
  obtain ⟨m, _, hwidth, hheight, horiginal⟩ := normalize_plain_eq_ok hplain h
  have hextras : Value.copyEntries s.extras = s.extras := by
    rw [extras_of_normalize (not_spec_of_isPlain hplain) h]
    exact Value.copyEntries_copyEntries _
  have hsnapshot : s.snapshot =
      if s.original.isEmpty then Value.copyEntries (s.elaborated.erase "original") else s.original := by
    rw [elaborated_eq hproper, Mapping.erase_insert (lacks_original_queued hproper)]
    unfold SizeSpec.snapshot
    split
    · rfl
    · rw [horiginal]
      exact Value.copyEntries_copyEntries _
  unfold SizeSpec.comeBack
  rw [hwidth.reread_eq, hheight.reread_eq, hextras, hsnapshot]
  rfl

end Size

namespace Engine

/-- A calculation sees no more of a size than its normal form. -/
theorem calculate_of_normalize_eq {e : Engine} {a b : Value} (h : e.normalize a = e.normalize b)
    (real : RealDimension) : e.calculate a real = e.calculate b real := by
  unfold calculate calculateWith
  rw [h]

theorem toPixels_of_normalize_eq {e : Engine} {a b : Value} (h : e.normalize a = e.normalize b)
    (real : RealDimension) : e.toPixels a real = e.toPixels b real := by
  unfold toPixels
  rw [calculate_of_normalize_eq h]

/-- When a normal form comes back from its elaboration, and what it comes back as. -/
theorem elaborate_survives_iff {e : Engine} {raw : Value} {s : SizeSpec}
    (hkeys : raw.HasDistinctKeys) (hs : (e.normalize raw).result = .ok s) :
    ∃ m, e.elaborate s.toValue = pure m ∧
      ((e.normalize (.map m)).result = .ok s ↔ s.Survives) ∧
      (s.Survives → ∀ real, e.calculate (.map m) real = e.calculate s.toValue real ∧
        e.toPixels (.map m) real = e.toPixels s.toValue real) ∧
      (raw.isPlain = true →
        (s.Survives ↔ s.queue ≠ [] ∧ s.original ≠ [] ∧ s.width.unit ≠ .invalid ∧
          s.height.unit ≠ .invalid) ∧
        e.normalize (.map m) = pure ⟨s.width.orUnspecified, s.height.orUnspecified,
          if s.queue.isEmpty then [.ofPolicy e.config.defaultPolicy] else s.queue,
          if s.original.isEmpty then Value.copyEntries (m.erase "original") else s.original,
          s.extras⟩) := by
  have hdistinct := Size.distinct_extras hkeys hs
  have hiff := Size.normalize_elaborated_iff e.config e.registry hdistinct
  refine ⟨s.elaborated, Size.canonical_toValue e.config s, hiff, ?_, ?_⟩
  · intro hsurvives real
    have hresult := hiff.2 hsurvives
    have hproper : s.Proper := ⟨hsurvives.unreserved, hdistinct⟩
    have hback : e.normalize (.map s.elaborated) = pure (s.comeBack e.config) :=
      Size.normalize_elaborated e.config e.registry hproper
    have heq : s.comeBack e.config = s := by
      rw [Size.normalize_elaborated e.config e.registry hproper] at hresult
      exact Except.ok.inj hresult
    have hself : e.normalize s.toValue = pure s := Size.normalize_toValue e.config e.registry s none
    rw [heq, ← hself] at hback
    exact ⟨calculate_of_normalize_eq hback real, toPixels_of_normalize_eq hback real⟩
  · intro hplain
    refine ⟨Size.survives_plain_iff hplain hs, ?_⟩
    rw [← Size.comeBack_plain hkeys hplain hs]
    exact Size.normalize_elaborated e.config e.registry (Size.proper_plain hkeys hplain hs)

/-! ## A size that is not to be scaled -/

/-- Thirty pixels by half of the height, with no functions to run. -/
def unscaled : Mapping :=
  [(.str "function", .list []), (.str "height", .str "0.5x"), (.str "width", .str "30")]

def unscaledSpec : SizeSpec :=
  ⟨.pixel (.int 30), .factor (Numeral.Signed.toBinary64 ⟨false, ['0'], ['5']⟩), [], unscaled, []⟩

/-- A picture of two hundred by one hundred pixels. -/
def twoToOne : RealDimension := ⟨.int 200, .int 100, by decide, by decide⟩

theorem read_thirty : Dimension.read .standard (.str "30") = .ok unscaledSpec.width := by
  have hfin : (Numeral.Signed.toBinary64 ⟨false, ['3', '0'], []⟩).isFinite = true := by decide +kernel
  show Dimension.ofPixelNumeral ⟨false, ['3', '0'], []⟩ = _
  unfold Dimension.ofPixelNumeral
  rw [if_pos hfin]
  rfl

theorem read_half : Dimension.read .standard (.str "0.5x") = .ok unscaledSpec.height := by
  have hfin : (Numeral.Signed.toBinary64 ⟨false, ['0'], ['5']⟩).isFinite = true := by decide +kernel
  show Except.ok (Dimension.ofFactorNumeral ⟨false, ['0'], ['5']⟩) = _
  unfold Dimension.ofFactorNumeral
  rw [if_pos hfin]
  rfl

theorem normalize_unscaled : Engine.normalize {} (.map unscaled) = pure unscaledSpec := by
  have hcanonical : Engine.normalize {} (.map unscaled) =
      Size.normalizeCanonical .standard {} (Mapping.insert "original" (.map unscaled) unscaled) := rfl
  rw [hcanonical, Size.normalizeCanonical_of_read read_thirty read_half rfl rfl]
  rfl

theorem distinct_unscaled : (Value.map unscaled).HasDistinctKeys := by
  have hkey : ∀ a b : String, a ≠ b → (Value.str a).sameKey (.str b) = false := by
    intro a b hne
    rw [Mapping.sameKey_str]
    exact beq_eq_false_iff_ne.2 hne.symm
  unfold Value.HasDistinctKeys Mapping.Distinct unscaled
  simp [hkey]

/-- Elaborated, it is scaled after all. -/
theorem elaborate_survives_iff_unscaled :
    (Engine.normalize {} (.map unscaled)).result = .ok unscaledSpec ∧
    ∃ m, Engine.elaborate {} unscaledSpec.toValue = pure m ∧
      (Engine.normalize {} (.map m)).result ≠ .ok unscaledSpec ∧
      (Engine.toPixels {} unscaledSpec.toValue twoToOne).result = .ok ⟨30, 50⟩ ∧
      (Engine.toPixels {} (.map m) twoToOne).result = .ok ⟨30, 15⟩ := by
  have hs : (Engine.normalize {} (.map unscaled)).result = .ok unscaledSpec := by
    rw [normalize_unscaled]
    rfl
  obtain ⟨m, hm, hiff, -, -⟩ := elaborate_survives_iff distinct_unscaled hs
  have hresult : (pure m : Logged Mapping).result = (pure unscaledSpec.elaborated : Logged Mapping).result := by
    rw [← hm]
    exact congrArg Logged.result (Size.canonical_toValue .standard unscaledSpec)
  obtain rfl : m = unscaledSpec.elaborated := Except.ok.inj hresult
  refine ⟨hs, _, hm, fun h => (hiff.1 h).queue rfl, ?_, ?_⟩
  · exact Scaling.ok_of_toOption (by decide +kernel)
  · exact Scaling.ok_of_toOption (by decide +kernel)

end Engine

end ImageSizing
