import ImageSizing.Proofs.Size.Elaboration

/-!
# Canonical forms that are normalized again

The canonical form of a size is a mapping, and a mapping is a size too.  Making it canonical a
second time copies it, and a snapshot that counts as present is kept.  Axes read like their
copies, and the other entries of a canonical form are copies already (`Settled`), so that the
second time nothing changes:

    m.Settled → normalize cfg r (.map m) = normalizeCanonical cfg r m     (normalize_settled)
-/

namespace ImageSizing

namespace Dimension

theorem structuredUnit?_copy (v : Value) : structuredUnit? v.copy = structuredUnit? v := by
  cases v <;> rfl

/-- A structured dimension reads like its copy. -/
theorem readStructured_copyEntries (m : Mapping) :
    readStructured (Value.copyEntries m) = readStructured m := by
  have hunit : structuredUnit? (Mapping.get (Value.copyEntries m) "unit") =
      structuredUnit? (m.get "unit") := by
    rw [Value.get_copyEntries, structuredUnit?_copy]
  unfold readStructured
  rw [hunit, Value.get_copyEntries]
  cases m.get "value" <;> rfl

/-- A value reads like its copy: neither lists nor tuples are dimensions. -/
theorem read_copy (g : Grammar) (v : Value) : read g v.copy = read g v := by
  cases v with
  | map m => exact congrArg Except.ok (readStructured_copyEntries m)
  | _ => rfl

end Dimension

namespace Size

/-- A canonical form with a snapshot, of which all but the axes are copies. -/
structure Settled (m : Mapping) : Prop where
  present : (m.get "original").isTruthy = true
  function : (m.get "function").copy = m.get "function"
  original : (m.get "original").copy = m.get "original"
  extras : Value.copyEntries (m.filter fun e => isExtra e.1) = m.filter fun e => isExtra e.1

/-- The axes, the references, the snapshot and the extras are all that a normal form takes from a
canonical one. -/
theorem normalizeCanonical_congr {cfg cfg' : EngineConfig} {r : Registry} {m m' : Mapping}
    (hwidth : Dimension.read cfg.grammar (m.get "width") = Dimension.read cfg'.grammar (m'.get "width"))
    (hheight : Dimension.read cfg.grammar (m.get "height") =
      Dimension.read cfg'.grammar (m'.get "height"))
    (hrefs : resolveAll cfg r (references cfg (m.get "function")) =
      resolveAll cfg' r (references cfg' (m'.get "function")))
    (horiginal : m.get "original" = m'.get "original")
    (hextras : (m.filter fun e => isExtra e.1) = m'.filter fun e => isExtra e.1) :
    normalizeCanonical cfg r m = normalizeCanonical cfg' r m' := by
  unfold normalizeCanonical
  dsimp only
  rw [hwidth, hheight, hrefs, horiginal, hextras]

/-- A settled canonical form is its own canonical form, up to its axes. -/
theorem normalize_settled {m : Mapping} (hm : Settled m) (cfg : EngineConfig) (r : Registry) :
    normalize cfg r (.map m) = normalizeCanonical cfg r m := by
  have hpresent : (Mapping.get (Value.copyEntries m) "original").isTruthy = true := by
    rw [Value.get_copyEntries, Value.isTruthy_copy]
    exact hm.present
  have hcanonical : canonical cfg (.map m) = pure (Value.copyEntries m) := by
    show (pure (withSnapshot (Value.copyEntries m)) : Logged Mapping) = _
    rw [withSnapshot_of_truthy hpresent]
  show (canonical cfg (.map m) >>= fun m => normalizeCanonical cfg r m) = _
  rw [hcanonical, Logged.pure_bind]
  refine normalizeCanonical_congr ?_ ?_ ?_ ?_ ?_
  · rw [Value.get_copyEntries, Dimension.read_copy]
  · rw [Value.get_copyEntries, Dimension.read_copy]
  · rw [Value.get_copyEntries, hm.function]
  · rw [Value.get_copyEntries, hm.original]
  · rw [filter_copyEntries isExtra, hm.extras]

/-- Another function leaves a canonical form settled. -/
theorem Settled.insert_function {m : Mapping} (hm : Settled m) {v : Value} (hv : v.copy = v) :
    Settled (Mapping.insert "function" v m) := by
  have horiginal : (Mapping.insert "function" v m).get "original" = m.get "original" :=
    Mapping.get_insert_of_ne (by decide) v m
  refine ⟨?_, ?_, ?_, ?_⟩
  · rw [horiginal]
    exact hm.present
  · rw [Mapping.get_insert_self, hv]
  · rw [horiginal]
    exact hm.original
  · rw [Mapping.filter_insert (by decide)]
    exact hm.extras

/-! ## Canonical forms of sizes -/

theorem ofPair_eq_pure {separator raw : String} {parts : List Char × List Char} {m : Mapping}
    (h : (ofPair separator raw parts).result = .ok m) : ofPair separator raw parts = pure m := by
  unfold ofPair at h ⊢
  cases hcut : Text.cut? separator.toList parts.2 with
  | some rest =>
    rw [hcut] at h
    cases h
  | none =>
    rw [hcut] at h
    cases h
    rfl

theorem ofText_eq_pure {cfg : EngineConfig} {raw : String} {m : Mapping}
    (h : (ofText cfg raw).result = .ok m) : ofText cfg raw = pure m := by
  unfold ofText at h ⊢
  cases hsep : cfg.separator with
  | unusable t =>
    rw [hsep] at h
    cases h
  | text separator ne =>
    rw [hsep] at h
    dsimp only at h ⊢
    cases hcut : Text.cut? separator.toList raw.toList with
    | some parts =>
      rw [hcut] at h
      exact ofPair_eq_pure h
    | none =>
      rw [hcut] at h
      cases h
      rfl

/-- A canonical form is written without a word. -/
theorem canonical_eq_pure {cfg : EngineConfig} {raw : Value} {m : Mapping}
    (h : (canonical cfg raw).result = .ok m) : canonical cfg raw = pure m := by
  obtain ⟨m', hm', rfl⟩ := canonical_eq_ok h
  have hentries : entries cfg raw = pure m' := by
    cases raw with
    | spec w h' fs o x =>
      have hspec : ofSpec w h' fs o x = .ok m' := Logged.ofFaulty_result_eq_ok_iff.1 hm'
      show Logged.ofFaulty (ofSpec w h' fs o x) = _
      rw [hspec]
      rfl
    | str text => exact ofText_eq_pure hm'
    | _ =>
      cases hm'
      rfl
  unfold canonical
  rw [hentries]
  rfl

/-- What a snapshot is added to is settled by it, if there is anything to take one of. -/
theorem settled_withSnapshot {m : Mapping} (h : ((withSnapshot m).get "original").isTruthy = true)
    (hfunction : (m.get "function").copy = m.get "function")
    (horiginal : (m.get "original").copy = m.get "original")
    (hextras : Value.copyEntries (m.filter fun e => isExtra e.1) = m.filter fun e => isExtra e.1) :
    Settled (withSnapshot m) := by
  refine ⟨h, ?_, ?_, ?_⟩
  · unfold withSnapshot
    split
    · exact hfunction
    · rw [Mapping.get_insert_of_ne (by decide)]
      exact hfunction
  · unfold withSnapshot
    split
    · exact horiginal
    · rw [Mapping.get_insert_self]
      exact congrArg Value.map (Value.copyEntries_copyEntries _)
  · rw [filter_withSnapshot]
    exact hextras

/-- The canonical form of a size that is no specification is settled, unless the size is empty. -/
theorem settled_canonical {cfg : EngineConfig} {raw : Value} {m : Mapping}
    (hraw : ∀ w h fs o x, raw ≠ .spec w h fs o x) (h : (canonical cfg raw).result = .ok m)
    (hpresent : (m.get "original").isTruthy = true) : Settled m := by
  obtain ⟨m', hm', rfl⟩ := canonical_eq_ok h
  have hextras : Value.copyEntries (m'.filter fun e => isExtra e.1) =
      m'.filter fun e => isExtra e.1 := by
    rw [filter_entries hraw hm', Value.copyEntries_copyEntries]
  cases raw with
  | spec w h' fs o x => exact absurd rfl (hraw w h' fs o x)
  | map entries =>
    cases hm'
    refine settled_withSnapshot hpresent ?_ ?_ hextras
    · rw [Value.get_copyEntries, Value.copy_copy]
    · rw [Value.get_copyEntries, Value.copy_copy]
  | str text =>
    rcases ofText_eq_ok hm' with rfl | ⟨w, h', rfl⟩
    · exact settled_withSnapshot hpresent rfl rfl hextras
    · exact settled_withSnapshot hpresent rfl rfl hextras
  | _ =>
    cases hm'
    exact settled_withSnapshot hpresent rfl rfl hextras

end Size

end ImageSizing
