import ImageSizing.Proofs.Size.Normal
import ImageSizing.Proofs.Dimension.Readable
import ImageSizing.Proofs.Value.Keys

/-!
# Plain sizes

A plain size is one that a user writes down: no specification, no ready-made dimension, and
no mapping that brings a snapshot with it.  If its whole numbers can be printed, then so can
the snapshot of its normal form, whose axes are fit for calculations (`Ready`).
-/

namespace ImageSizing

namespace Value

/-- No specification, no ready-made dimension, and no snapshot. -/
def isPlain : Value → Bool
  | .spec .. | .dim .. => false
  | .map m => !(Mapping.get m "original").isTruthy && !Dimension.isReady (Mapping.get m "width")
      && !Dimension.isReady (Mapping.get m "height")
  | _ => true

end Value

namespace SizeSpec

/-- Axes that can be calculated with, and a snapshot that can be printed. -/
structure Ready (s : SizeSpec) : Prop where
  width : s.width.Readable
  height : s.height.Readable
  original : Value.printableEntries s.original = true

end SizeSpec

namespace Size

/-- What `entries` makes of a plain size: entries without a snapshot and without ready-made axes. -/
structure PlainEntries (m : Mapping) : Prop where
  original : (m.get "original").isTruthy = false
  width : Dimension.isReady (m.get "width") = false
  height : Dimension.isReady (m.get "height") = false

theorem isReady_copy (v : Value) : Dimension.isReady v.copy = Dimension.isReady v := by
  cases v <;> rfl

theorem plainEntries_copyEntries {m : Mapping} (hplain : (Value.map m).isPlain = true) :
    PlainEntries (Value.copyEntries m) := by
  unfold Value.isPlain at hplain
  simp only [Bool.and_eq_true, Bool.not_eq_true'] at hplain
  obtain ⟨⟨horiginal, hwidth⟩, hheight⟩ := hplain
  refine ⟨?_, ?_, ?_⟩
  · rw [Value.get_copyEntries, Value.isTruthy_copy, horiginal]
  · rw [Value.get_copyEntries, isReady_copy, hwidth]
  · rw [Value.get_copyEntries, isReady_copy, hheight]

/-- A text is a width alone or a pair. -/
theorem ofText_eq_ok {cfg : EngineConfig} {raw : String} {m : Mapping}
    (h : (ofText cfg raw).result = .ok m) : m = widthOnly (.str raw) ∨
      ∃ w h, m = [(.str "width", .str w), (.str "height", .str h)] := by
  unfold ofText at h
  split at h
  · cases h
  · split at h
    · unfold ofPair at h
      split at h
      · cases h
      · cases h
        exact .inr ⟨_, _, rfl⟩
    · cases h
      exact .inl rfl

theorem plainEntries_entries {cfg : EngineConfig} {raw : Value} {m : Mapping}
    (hplain : raw.isPlain = true) (h : (entries cfg raw).result = .ok m) : PlainEntries m := by
  cases raw with
  | spec w h' fs o x => cases hplain
  | dim u v => cases hplain
  | map m =>
    cases h
    exact plainEntries_copyEntries hplain
  | str raw => rcases ofText_eq_ok h with rfl | ⟨w, h', rfl⟩ <;> exact ⟨rfl, rfl, rfl⟩
  | _ =>
    cases h
    exact ⟨rfl, rfl, rfl⟩

theorem printable_entries {cfg : EngineConfig} {raw : Value} {m : Mapping}
    (hplain : raw.isPlain = true) (hprint : raw.printable = true)
    (h : (entries cfg raw).result = .ok m) : Value.printableEntries m = true := by
  have hwidthOnly : Value.printableEntries (widthOnly raw) = true :=
    Value.printableEntries_iff.2 fun e he => by
      cases List.mem_singleton.1 he
      exact ⟨rfl, hprint⟩
  cases raw with
  | spec w h' fs o x => cases hplain
  | map m =>
    cases h
    rw [Value.printable_copyEntries]
    exact hprint
  | nothing =>
    cases h
    rfl
  | str raw => rcases ofText_eq_ok h with rfl | ⟨w, h', rfl⟩ <;> rfl
  | _ =>
    cases h
    exact hwidthOnly

theorem not_spec_of_isPlain {raw : Value} (h : raw.isPlain = true) :
    ∀ w h' fs o x, raw ≠ .spec w h' fs o x := by
  rintro w h' fs o x rfl
  cases h

/-- A plain size is normalized through its canonical form. -/
theorem normalize_plain {raw : Value} (h : raw.isPlain = true) (cfg : EngineConfig) (r : Registry) :
    normalize cfg r raw = canonical cfg raw >>= fun m => normalizeCanonical cfg r m :=
  normalize_of_not_spec (not_spec_of_isPlain h) cfg r none

/-- The entries of a plain size are given a snapshot of themselves. -/
theorem withSnapshot_plain {m : Mapping} (h : PlainEntries m) : withSnapshot m =
    Mapping.insert "original" (.map (Value.copyEntries (Mapping.erase m "original"))) m := by
  unfold withSnapshot
  rw [if_neg (by rw [h.original]; simp)]

/-- The normal form of a plain size has finite axes and a snapshot of the entries. -/
theorem normalize_plain_eq_ok {cfg : EngineConfig} {r : Registry} {raw : Value} {s : SizeSpec}
    (hplain : raw.isPlain = true) (h : (normalize cfg r raw).result = .ok s) :
    ∃ m, (entries cfg raw).result = .ok m ∧ s.width.Finite ∧ s.height.Finite ∧
      s.original = Value.copyEntries (Mapping.erase m "original") := by
  rw [normalize_plain hplain] at h
  obtain ⟨_, hm', h⟩ := Logged.bind_result_eq_ok_iff.1 h
  obtain ⟨m, hm, rfl⟩ := canonical_eq_ok hm'
  have hentries := plainEntries_entries hplain hm
  obtain ⟨hw, hh, _, ho, _⟩ := normalizeCanonical_eq_ok h
  rw [withSnapshot_plain hentries, Mapping.get_insert_of_ne (by decide)] at hw hh
  rw [withSnapshot_plain hentries, Mapping.get_insert_self, Mapping.ofValue_map] at ho
  exact ⟨m, hm, Dimension.finite_of_read hentries.width hw, Dimension.finite_of_read hentries.height hh,
    (Except.ok.inj ho).symm⟩

/-- A plain size that can be printed has a normal form that is ready for the policies. -/
theorem ready_of_normalize {cfg : EngineConfig} {r : Registry} {raw : Value} {s : SizeSpec}
    (hplain : raw.isPlain = true) (hprint : raw.printable = true)
    (h : (normalize cfg r raw).result = .ok s) : s.Ready := by
  obtain ⟨m, hm, hwidth, hheight, horiginal⟩ := normalize_plain_eq_ok hplain h
  refine ⟨hwidth.readable, hheight.readable, ?_⟩
  rw [horiginal, Value.printable_copyEntries]
  exact Value.printable_erase (printable_entries hplain hprint hm) "original"

/-- Entries with the name of one policy are normalized without a word. -/
theorem normalize_policy {cfg : EngineConfig} {r : Registry} {m : Mapping} {w h : Dimension}
    {p : Policy} (hcanonical : canonical cfg (.map m) = pure (Mapping.insert "original" (.map m) m))
    (hw : Dimension.read cfg.grammar (m.get "width") = .ok w)
    (hh : Dimension.read cfg.grammar (m.get "height") = .ok h)
    (hp : m.get "function" = .str p.name) (hextras : (m.filter fun e => isExtra e.1) = []) :
    normalize cfg r (.map m) = pure ⟨w, h, [.ofPolicy p], m, []⟩ := by
  have hqueue : resolveAll cfg r (references cfg (m.get "function")) = pure [.ofPolicy p] := by
    rw [hp]
    cases p <;> rfl
  have hnormal := @normalizeCanonical_of_read cfg r (Mapping.insert "original" (.map m) m) m w h
    [.ofPolicy p] []
    (by rw [Mapping.get_insert_of_ne (by decide), hw])
    (by rw [Mapping.get_insert_of_ne (by decide), hh])
    (by rw [Mapping.get_insert_of_ne (by decide), hqueue]; rfl)
    (by rw [Mapping.get_insert_self, Mapping.ofValue_map])
  have hmap : ∀ w h fs o x, Value.map m ≠ .spec w h fs o x := nofun
  rw [normalize_of_not_spec hmap, hcanonical, Logged.pure_bind]
  show normalizeCanonical cfg r (Mapping.insert "original" (.map m) m) = _
  rw [hnormal, Mapping.filter_insert (by decide), hextras]
  rfl

end Size

end ImageSizing
