import ImageSizing.Proofs.Size.Plain
import ImageSizing.Proofs.Value.Keys

/-!
# Specifications in canonical form

A specification has a canonical form, a mapping that can be normalized like any other one.
What comes back is not always what went in (`SizeSpec.comeBack`): the axes are read from
their mappings, an empty queue is left out and so stands for the default policy, and an
empty snapshot is left out and taken anew.  A specification comes back as it was exactly if
none of this happens to it and everything in it is a copy already (`SizeSpec.Survives`).

    s.Proper → normalize cfg r (.map s.elaborated) = pure (s.comeBack cfg)      (normalize_elaborated)
    (normalize cfg r (.map s.elaborated)).result = .ok s ↔ s.Survives           (normalize_elaborated_iff)
-/

namespace ImageSizing

/-- The dimension that the mapping of a dimension is read as. -/
def Dimension.reread (d : Dimension) : Dimension := readStructured d.toMapping

theorem Dimension.readStructured_copy (d : Dimension) :
    readStructured (Value.copyEntries d.toMapping) = d.reread := by
  obtain ⟨unit, value⟩ := d
  cases unit <;> cases value <;> rfl

/-- A finite dimension is read as it is, unless it is invalid. -/
theorem Dimension.Finite.reread_eq {d : Dimension} (h : d.Finite) :
    d.reread = if d.unit = .invalid then .unspecified else d := by
  have hnumber : ∀ (u : AxisUnit) (v : Number), u = .pixel ∨ u = .factor → v.isFinite = true →
      Dimension.reread ⟨u, .ofNumber v⟩ = ⟨u, .ofNumber v⟩ := by
    intro u v hu hv
    have hread : Dimension.reread ⟨u, .ofNumber v⟩ =
        if v.isFinite = true then ⟨u, .ofNumber v⟩ else .invalid := by
      rcases hu with rfl | rfl <;> cases v <;> rfl
    rw [hread, if_pos hv]
  obtain ⟨unit, value⟩ := d
  cases unit with
  | pixel =>
    obtain ⟨v, rfl, hv⟩ := h
    exact hnumber .pixel v (.inl rfl) hv
  | factor =>
    obtain ⟨v, rfl, hv⟩ := h
    exact hnumber .factor v (.inr rfl) hv
  | unspecified =>
    obtain rfl : value = .nothing := h
    rfl
  | invalid =>
    obtain rfl : value = .nothing := h
    rfl

theorem Dimension.Finite.reread_iff {d : Dimension} (h : d.Finite) :
    d.reread = d ↔ d.unit ≠ .invalid := by
  rw [h.reread_eq]
  by_cases hd : d.unit = .invalid
  · rw [if_pos hd]
    refine iff_of_false ?_ fun hne => hne hd
    rintro rfl
    cases hd
  · rw [if_neg hd]
    exact iff_of_true rfl hd

namespace SizeSpec

/-! ## The canonical form -/

/-- The axes of a specification as mappings. -/
def axisEntries (s : SizeSpec) : Mapping :=
  [(.str "width", .map s.width.toMapping), (.str "height", .map s.height.toMapping)]

/-- The canonical form without queue and snapshot. -/
def axesAndExtras (s : SizeSpec) : Mapping :=
  (Value.copyEntries s.extras).foldl (fun m e => Mapping.insertKey e.1 e.2 m) s.axisEntries

/-- The canonical form without the snapshot. -/
def queued (s : SizeSpec) : Mapping :=
  if s.queue.isEmpty then s.axesAndExtras
  else Mapping.insert "function" (.list (s.queue.map .step)) s.axesAndExtras

def elaborated (s : SizeSpec) : Mapping :=
  Size.withSnapshot (if s.original.isEmpty then s.queued
    else Mapping.insert "original" (.map (Value.copyEntries s.original)) s.queued)

/-- Extras that can stand beside the entries of the library. -/
structure Proper (s : SizeSpec) : Prop where
  unreserved : ∀ e ∈ s.extras, Size.isExtra e.1 = true
  distinct : Mapping.Distinct s.extras

def snapshot (s : SizeSpec) : Mapping :=
  Value.copyEntries (if s.original.isEmpty then s.queued else s.original)

/-- What the canonical form of a specification is normalized to. -/
def comeBack (s : SizeSpec) (cfg : EngineConfig) : SizeSpec :=
  ⟨s.width.reread, s.height.reread, if s.queue.isEmpty then [.ofPolicy cfg.defaultPolicy] else s.queue,
    s.snapshot, Value.copyEntries s.extras⟩

/-- Nothing of a specification changes on the way through its canonical form. -/
structure Survives (s : SizeSpec) : Prop where
  queue : s.queue ≠ []
  original : s.original ≠ []
  width : s.width.reread = s.width
  height : s.height.reread = s.height
  unreserved : ∀ e ∈ s.extras, Size.isExtra e.1 = true
  copied : Value.copyEntries s.extras = s.extras
  originalCopied : Value.copyEntries s.original = s.original

end SizeSpec

namespace Size

theorem canonical_toValue (cfg : EngineConfig) (s : SizeSpec) :
    canonical cfg s.toValue = pure s.elaborated := by
  have hempty : (s.queue.map Value.step).isEmpty = s.queue.isEmpty := List.isEmpty_map
  have hentries : entries cfg s.toValue = Logged.ofFaulty (ofSpec s.width.toValue s.height.toValue
      (s.queue.map .step ++ []) s.original s.extras) := rfl
  unfold canonical
  rw [hentries, List.append_nil]
  unfold ofSpec
  rw [hempty]
  rfl

/-! ## Its entries -/

theorem isKey_of_isExtra {key : String} {k : Value} (hkey : key ∈ reservedKeys)
    (h : isExtra k = true) : Mapping.isKey key k = false := by
  unfold isExtra at h
  rw [Bool.not_eq_true', List.any_eq_false] at h
  exact (Bool.not_eq_true _).mp (h key hkey)

section Entries

variable {s : SizeSpec}

theorem isExtra_copyEntries {m : Mapping} (h : ∀ e ∈ m, isExtra e.1 = true) :
    ∀ e ∈ Value.copyEntries m, isExtra e.1 = true := by
  rw [Value.copyEntries_eq_map]
  intro e he
  obtain ⟨x, hx, rfl⟩ := List.mem_map.1 he
  exact h x hx

theorem filter_copyEntries (p : Value → Bool) (m : Mapping) :
    (Value.copyEntries m).filter (fun e => p e.1) = Value.copyEntries (m.filter fun e => p e.1) := by
  rw [Value.copyEntries_eq_map, Value.copyEntries_eq_map, List.filter_map]
  rfl

/-- Proper extras follow the axes. -/
theorem axesAndExtras_eq (hs : s.Proper) :
    s.axesAndExtras = s.axisEntries ++ Value.copyEntries s.extras := by
  refine Mapping.foldl_insertKey ?_ hs.distinct.copyEntries
  intro e he x hx
  have hextra := isExtra_copyEntries hs.unreserved x hx
  rcases List.mem_cons.1 he with rfl | he
  · rw [Mapping.sameKey_str]
    exact isKey_of_isExtra (by decide) hextra
  · cases List.mem_singleton.1 he
    rw [Mapping.sameKey_str]
    exact isKey_of_isExtra (by decide) hextra

theorem get_width_axesAndExtras (hs : s.Proper) :
    s.axesAndExtras.get "width" = .map s.width.toMapping := by
  rw [axesAndExtras_eq hs]
  rfl

theorem get_height_axesAndExtras (hs : s.Proper) :
    s.axesAndExtras.get "height" = .map s.height.toMapping := by
  rw [axesAndExtras_eq hs]
  rfl

theorem lacks_axesAndExtras (hs : s.Proper) {key : String} (hkey : key ∈ reservedKeys)
    (hwidth : key ≠ "width") (hheight : key ≠ "height") : Mapping.Lacks s.axesAndExtras key := by
  rw [axesAndExtras_eq hs]
  intro e he
  rcases List.mem_append.1 he with he | he
  · rcases List.mem_cons.1 he with rfl | he
    · exact beq_eq_false_iff_ne.2 hwidth.symm
    · cases List.mem_singleton.1 he
      exact beq_eq_false_iff_ne.2 hheight.symm
  · exact isKey_of_isExtra hkey (isExtra_copyEntries hs.unreserved e he)

theorem filter_axesAndExtras (hs : s.Proper) :
    s.axesAndExtras.filter (fun e => isExtra e.1) = Value.copyEntries s.extras := by
  rw [axesAndExtras_eq hs, List.filter_append,
    List.filter_eq_self.2 (isExtra_copyEntries hs.unreserved)]
  rfl

theorem get_queued_of_ne {key : String} (hkey : key ≠ "function") :
    s.queued.get key = s.axesAndExtras.get key := by
  unfold SizeSpec.queued
  split
  · rfl
  · exact Mapping.get_insert_of_ne hkey _ _

theorem get_function_queued (hs : s.Proper) : s.queued.get "function" =
    if s.queue.isEmpty = true then .nothing else .list (s.queue.map .step) := by
  unfold SizeSpec.queued
  split
  · exact Mapping.get_of_lacks (lacks_axesAndExtras hs (by decide) (by decide) (by decide))
  · exact Mapping.get_insert_self _ _ _

theorem lacks_original_queued (hs : s.Proper) : Mapping.Lacks s.queued "original" := by
  have hlacks : Mapping.Lacks s.axesAndExtras "original" :=
    lacks_axesAndExtras hs (by decide) (by decide) (by decide)
  unfold SizeSpec.queued
  split
  · exact hlacks
  · exact Mapping.lacks_insert hlacks (by decide) _

theorem filter_queued (hs : s.Proper) :
    s.queued.filter (fun e => isExtra e.1) = Value.copyEntries s.extras := by
  unfold SizeSpec.queued
  split
  · exact filter_axesAndExtras hs
  · rw [Mapping.filter_insert (by decide)]
    exact filter_axesAndExtras hs

theorem queued_ne_nil (hs : s.Proper) : s.queued ≠ [] := by
  intro h
  have hwidth : s.queued.get "width" = s.axesAndExtras.get "width" := get_queued_of_ne (by decide)
  rw [h, get_width_axesAndExtras hs] at hwidth
  cases hwidth

theorem snapshot_ne_nil (hs : s.Proper) : s.snapshot ≠ [] := by
  unfold SizeSpec.snapshot
  rw [Value.copyEntries_eq_map, ne_eq, List.map_eq_nil_iff]
  split
  · exact queued_ne_nil hs
  · rename_i h
    exact fun hnil => h (List.isEmpty_iff.2 hnil)

theorem isTruthy_map {m : Mapping} (h : m ≠ []) : (Value.map m).isTruthy = true := by
  cases m with
  | nil => exact absurd rfl h
  | cons e m => rfl

/-- The canonical form always carries a snapshot. -/
theorem elaborated_eq (hs : s.Proper) :
    s.elaborated = Mapping.insert "original" (.map s.snapshot) s.queued := by
  have hlacks := lacks_original_queued hs
  have hsnapshot := isTruthy_map (snapshot_ne_nil hs)
  unfold SizeSpec.elaborated SizeSpec.snapshot withSnapshot
  unfold SizeSpec.snapshot at hsnapshot
  by_cases h : s.original.isEmpty = true
  · rw [if_pos h, if_pos h, Mapping.get_of_lacks hlacks, Mapping.erase_of_lacks hlacks]
    rfl
  · rw [if_neg h] at hsnapshot
    rw [if_neg h, if_neg h, Mapping.get_insert_self, if_pos hsnapshot]

end Entries

/-! ## Normalizing it -/

theorem withSnapshot_of_truthy {m : Mapping} (h : (m.get "original").isTruthy = true) :
    withSnapshot m = m :=
  if_pos h

theorem copy_steps (steps : List Step) :
    (Value.list (steps.map .step)).copy = .list (steps.map .step) := by
  have hitems : Value.copyItems (steps.map .step) = steps.map .step := by
    induction steps with
    | nil => rfl
    | cons step steps ih =>
      show Value.step step :: Value.copyItems (steps.map .step) = _
      rw [ih]
      rfl
  exact congrArg Value.list hitems

theorem resolveAll_default (cfg : EngineConfig) (r : Registry) :
    resolveAll cfg r [.str cfg.defaultPolicy.name] = pure [.ofPolicy cfg.defaultPolicy] := by
  have hfind : stepOf? r (.str cfg.defaultPolicy.name) = some (.ofPolicy cfg.defaultPolicy) := by
    cases cfg.defaultPolicy <;> rfl
  show (resolve cfg r (.str cfg.defaultPolicy.name) >>= fun step => pure [step]) = _
  unfold resolve
  rw [hfind]
  rfl

section Copied

variable {s : SizeSpec}

theorem get_copied_elaborated (hs : s.Proper) {key : String} (hkey : key ≠ "original") :
    Mapping.get (Value.copyEntries s.elaborated) key = (s.queued.get key).copy := by
  rw [Value.get_copyEntries, elaborated_eq hs, Mapping.get_insert_of_ne hkey]

theorem get_original_copied_elaborated (hs : s.Proper) :
    Mapping.get (Value.copyEntries s.elaborated) "original" = .map s.snapshot := by
  have hsnapshot : Value.copyEntries s.snapshot = s.snapshot := Value.copyEntries_copyEntries _
  rw [Value.get_copyEntries, elaborated_eq hs, Mapping.get_insert_self]
  exact congrArg Value.map hsnapshot

theorem filter_copied_elaborated (hs : s.Proper) :
    (Value.copyEntries s.elaborated).filter (fun e => isExtra e.1) = Value.copyEntries s.extras := by
  rw [filter_copyEntries, elaborated_eq hs, Mapping.filter_insert (by decide), filter_queued hs,
    Value.copyEntries_copyEntries]

/-- A canonical form is copied, and that is all: it has a snapshot already. -/
theorem canonical_elaborated (cfg : EngineConfig) (hs : s.Proper) :
    canonical cfg (.map s.elaborated) = pure (Value.copyEntries s.elaborated) := by
  show (pure (withSnapshot (Value.copyEntries s.elaborated)) : Logged Mapping) = _
  rw [withSnapshot_of_truthy]
  rw [get_original_copied_elaborated hs]
  exact isTruthy_map (snapshot_ne_nil hs)

end Copied

/-- What the canonical form of a proper specification is normalized to, without a word. -/
theorem normalize_elaborated (cfg : EngineConfig) (r : Registry) {s : SizeSpec} (hs : s.Proper) :
    normalize cfg r (.map s.elaborated) = pure (s.comeBack cfg) := by
  have hwidth : Dimension.read cfg.grammar (Mapping.get (Value.copyEntries s.elaborated) "width") =
      .ok s.width.reread := by
    rw [get_copied_elaborated hs (by decide), get_queued_of_ne (by decide),
      get_width_axesAndExtras hs]
    exact congrArg Except.ok (Dimension.readStructured_copy s.width)
  have hheight : Dimension.read cfg.grammar (Mapping.get (Value.copyEntries s.elaborated) "height") =
      .ok s.height.reread := by
    rw [get_copied_elaborated hs (by decide), get_queued_of_ne (by decide),
      get_height_axesAndExtras hs]
    exact congrArg Except.ok (Dimension.readStructured_copy s.height)
  have hqueue : resolveAll cfg r (references cfg (Mapping.get (Value.copyEntries s.elaborated) "function")) =
      pure (if s.queue.isEmpty = true then [.ofPolicy cfg.defaultPolicy] else s.queue) := by
    rw [get_copied_elaborated hs (by decide), get_function_queued hs]
    split
    · exact resolveAll_default cfg r
    · rw [copy_steps]
      exact resolveAll_steps cfg r s.queue
  have horiginal : Mapping.ofValue (Mapping.get (Value.copyEntries s.elaborated) "original") =
      .ok s.snapshot := by
    rw [get_original_copied_elaborated hs, Mapping.ofValue_map]
  show (canonical cfg (.map s.elaborated) >>= fun m => normalizeCanonical cfg r m) = _
  rw [canonical_elaborated cfg hs, Logged.pure_bind,
    normalizeCanonical_of_read hwidth hheight hqueue horiginal, filter_copied_elaborated hs]
  rfl

/-- A specification comes back exactly if it survives. -/
theorem normalize_elaborated_iff (cfg : EngineConfig) (r : Registry) {s : SizeSpec}
    (hdistinct : Mapping.Distinct s.extras) :
    (normalize cfg r (.map s.elaborated)).result = .ok s ↔ s.Survives := by
  constructor
  · intro h
    have hextras : ∀ e ∈ s.extras, isExtra e.1 = true := by
      obtain ⟨m, _, hm⟩ := Logged.bind_result_eq_ok_iff.1 h
      rw [(normalizeCanonical_eq_ok hm).2.2.2.2]
      exact fun e he => (List.mem_filter.1 he).2
    have hproper : s.Proper := ⟨hextras, hdistinct⟩
    rw [normalize_elaborated cfg r hproper] at h
    have hback : s.comeBack cfg = s := Except.ok.inj h
    have horiginal : s.snapshot = s.original := congrArg SizeSpec.original hback
    have hqueue : (if s.queue.isEmpty = true then [.ofPolicy cfg.defaultPolicy] else s.queue) =
        s.queue := congrArg SizeSpec.queue hback
    have hne : s.original ≠ [] := horiginal ▸ snapshot_ne_nil hproper
    refine ⟨?_, hne, congrArg SizeSpec.width hback, congrArg SizeSpec.height hback, hextras,
      congrArg SizeSpec.extras hback, ?_⟩
    · intro hnil
      rw [hnil] at hqueue
      cases hqueue
    · rw [← horiginal]
      exact Value.copyEntries_copyEntries _
  · intro hs
    have hqueue : s.queue.isEmpty = false := List.isEmpty_eq_false_iff.2 hs.queue
    have horiginal : s.original.isEmpty = false := List.isEmpty_eq_false_iff.2 hs.original
    have hback : s.comeBack cfg = s := by
      unfold SizeSpec.comeBack SizeSpec.snapshot
      rw [hs.width, hs.height, hqueue, horiginal, hs.copied, if_neg (by decide), if_neg (by decide),
        hs.originalCopied]
    rw [normalize_elaborated cfg r ⟨hs.unreserved, hdistinct⟩, hback]
    rfl

/-! ## The extras of a normal form -/

/-- The entries of a size that are none of the library's business. -/
def ownExtras : Value → Mapping
  | .map m => m.filter fun e => isExtra e.1
  | _ => []

theorem filter_entries {cfg : EngineConfig} {raw : Value} {m : Mapping}
    (hraw : ∀ w h fs o x, raw ≠ .spec w h fs o x) (h : (entries cfg raw).result = .ok m) :
    m.filter (fun e => isExtra e.1) = Value.copyEntries (ownExtras raw) := by
  cases raw with
  | spec w h' fs o x => exact absurd rfl (hraw w h' fs o x)
  | map m =>
    cases h
    exact filter_copyEntries isExtra m
  | str raw => rcases ofText_eq_ok h with rfl | ⟨w, h', rfl⟩ <;> rfl
  | _ =>
    cases h
    rfl

theorem filter_withSnapshot (m : Mapping) :
    (withSnapshot m).filter (fun e => isExtra e.1) = m.filter fun e => isExtra e.1 := by
  unfold withSnapshot
  split
  · rfl
  · exact Mapping.filter_insert (by decide) _ m

/-- The extras of a normal form are copies. -/
theorem extras_of_normalize {cfg : EngineConfig} {r : Registry} {raw : Value} {s : SizeSpec}
    (hraw : ∀ w h fs o x, raw ≠ .spec w h fs o x) (h : (normalize cfg r raw).result = .ok s) :
    s.extras = Value.copyEntries (ownExtras raw) := by
  rw [normalize_of_not_spec hraw] at h
  obtain ⟨_, hm', h⟩ := Logged.bind_result_eq_ok_iff.1 h
  obtain ⟨m, hm, rfl⟩ := canonical_eq_ok hm'
  rw [← filter_entries hraw hm, ← filter_withSnapshot]
  exact (normalizeCanonical_eq_ok h).2.2.2.2

theorem isExtra_ownExtras (raw : Value) : ∀ e ∈ ownExtras raw, isExtra e.1 = true := by
  cases raw with
  | map m => exact fun e he => (List.mem_filter.1 he).2
  | _ => exact nofun

end Size

/-- No two entries of a size have the same key. -/
def Value.HasDistinctKeys : Value → Prop
  | .map m => Mapping.Distinct m
  | .spec _ _ _ _ extras => Mapping.Distinct extras
  | _ => True

namespace Size

/-- Distinct keys stay distinct in the extras of the normal form. -/
theorem distinct_extras {cfg : EngineConfig} {r : Registry} {raw : Value} {s : SizeSpec}
    (hkeys : raw.HasDistinctKeys) (h : (normalize cfg r raw).result = .ok s) :
    Mapping.Distinct s.extras := by
  have hown : Mapping.Distinct (ownExtras raw) → (∀ w h fs o x, raw ≠ .spec w h fs o x) →
      Mapping.Distinct s.extras := by
    intro hown hraw
    rw [extras_of_normalize hraw h]
    exact hown.copyEntries
  cases raw with
  | spec w h' fs o x =>
    rw [(normalizeSpec_eq_ok h).2.2.2.2]
    exact hkeys
  | map m => exact hown (Mapping.Distinct.filter hkeys _) nofun
  | _ => exact hown List.Pairwise.nil nofun

/-! ## Plain sizes -/

section Plain

variable {cfg : EngineConfig} {r : Registry} {raw : Value} {s : SizeSpec}

/-- The normal form of a plain size has extras that can stand in a canonical form. -/
theorem proper_plain (hkeys : raw.HasDistinctKeys) (hplain : raw.isPlain = true)
    (h : (normalize cfg r raw).result = .ok s) : s.Proper := by
  refine ⟨?_, distinct_extras hkeys h⟩
  rw [extras_of_normalize (not_spec_of_isPlain hplain) h]
  exact isExtra_copyEntries (isExtra_ownExtras raw)

/-- An empty queue, an empty snapshot and invalid axes are all that keeps the normal form of a
plain size from surviving. -/
theorem survives_plain_iff (hplain : raw.isPlain = true) (h : (normalize cfg r raw).result = .ok s) :
    s.Survives ↔ s.queue ≠ [] ∧ s.original ≠ [] ∧ s.width.unit ≠ .invalid ∧
      s.height.unit ≠ .invalid := by
  obtain ⟨m, _, hwidth, hheight, horiginal⟩ := normalize_plain_eq_ok hplain h
  have hextras := extras_of_normalize (not_spec_of_isPlain hplain) h
  constructor
  · intro hs
    exact ⟨hs.queue, hs.original, hwidth.reread_iff.1 hs.width, hheight.reread_iff.1 hs.height⟩
  · rintro ⟨hqueue, hne, hw, hh⟩
    refine ⟨hqueue, hne, hwidth.reread_iff.2 hw, hheight.reread_iff.2 hh, ?_, ?_, ?_⟩
    · rw [hextras]
      exact isExtra_copyEntries (isExtra_ownExtras raw)
    · rw [hextras]
      exact Value.copyEntries_copyEntries _
    · rw [horiginal]
      exact Value.copyEntries_copyEntries _

end Plain

end Size

end ImageSizing
