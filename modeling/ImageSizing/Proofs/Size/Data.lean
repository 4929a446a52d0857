import ImageSizing.Proofs.Size.Plain
import ImageSizing.Proofs.Dimension.Tokens
import ImageSizing.Proofs.Logged.Contained

/-!
# Sizes that are data

A plain size that is data has a normal form, with two exceptions: a text with more than one
separator is rejected by an error of validation, and a separator that is no text cannot be
looked for.  Where no custom functions are known every step of that normal form runs a policy,
because data refers to functions by name only.
-/

namespace ImageSizing

open Logged

namespace Size

/-! ## Canonical forms -/

theorem isExpected_malformedPair (raw separator : String) :
    (SizingError.malformedPair raw separator).IsExpected :=
  ⟨.inl rfl, fun _ => ⟨nofun, nofun⟩⟩

/-- The parts of a text are parts of its data. -/
theorem ofText_yields {cfg : EngineConfig} {separator : String} {ne : separator ≠ ""}
    (hsep : cfg.separator = .text separator ne) {raw : String} (hdata : (Value.str raw).IsData) :
    (ofText cfg raw).Yields Value.HoldsData := by
  have hwidth : (Value.str "width").IsData := Value.isData_str (by decide)
  have hheight : (Value.str "height").IsData := Value.isData_str (by decide)
  unfold ofText
  rw [hsep]
  dsimp only
  cases hcut : Text.cut? separator.toList raw.toList with
  | none => exact yields_pure ⟨hwidth, hdata, trivial⟩
  | some parts =>
    obtain ⟨before, after⟩ := parts
    have hraw := Text.cut?_eq_some hcut
    unfold ofPair
    dsimp only
    cases Text.cut? separator.toList after with
    | some _ => exact yields_fatal (isExpected_malformedPair raw separator)
    | none =>
      have hpart : ∀ part, part <:+: raw.toList → (Value.str (String.ofList part)).IsData := by
        intro part hinfix
        show Numeral.RunsWithin Numeral.digitLimit (String.ofList part).toList
        rw [String.toList_ofList]
        exact hdata.of_infix hinfix
      refine yields_pure ⟨hwidth, hpart before ?_, hheight, hpart after ?_, trivial⟩
      · rw [hraw, List.append_assoc]
        exact (List.prefix_append _ _).isInfix
      · rw [hraw]
        exact (List.suffix_append _ _).isInfix

theorem entries_yields {cfg : EngineConfig} {separator : String} {ne : separator ≠ ""}
    (hsep : cfg.separator = .text separator ne) {raw : Value} (hdata : raw.IsData) :
    (entries cfg raw).Yields Value.HoldsData := by
  have hwidthOnly : (pure (widthOnly raw) : Logged Mapping).Yields Value.HoldsData :=
    yields_pure ⟨Value.isData_str (by decide), hdata, trivial⟩
  cases raw with
  | nothing => exact yields_pure trivial
  | str raw => exact ofText_yields hsep hdata
  | map m => exact yields_pure (Value.holdsData_copyEntries m hdata)
  | bool _ | int _ | float _ | list _ | tuple _ => exact hwidthOnly
  | dim _ _ | real _ | pixels _ | spec _ _ _ _ _ | step _ | callable _ | foreign => exact hdata.elim

/-! ## Steps -/

theorem runsPolicy_find? {r : Registry} {name : String} {s : Step} (hcustom : r.custom = [])
    (h : r.find? name = some s) : s.runsPolicy = true := by
  unfold Registry.find? at h
  cases hp : Policy.ofName? name with
  | some p =>
    rw [hp] at h
    cases h
    rfl
  | none =>
    rw [hp, hcustom] at h
    cases h

/-- A reference that is data stands for a step that runs a policy. -/
theorem runsPolicy_stepFor (cfg : EngineConfig) {r : Registry} (hcustom : r.custom = []) {ref : Value}
    (hdata : ref.IsData) : (stepFor cfg r ref).runsPolicy = true := by
  unfold stepFor
  cases ref with
  | str name =>
    show ((r.find? name).getD (.ofPolicy cfg.defaultPolicy)).runsPolicy = true
    cases hfind : r.find? name with
    | some s => exact runsPolicy_find? hcustom hfind
    | none => rfl
  | nothing | bool _ | int _ | float _ | list _ | tuple _ | map _ => rfl
  | dim _ _ | real _ | pixels _ | spec _ _ _ _ _ | step _ | callable _ | foreign => exact hdata.elim

theorem isData_policyName (p : Policy) : (Value.str p.name).IsData := by
  cases p <;> exact Value.isData_str (by decide)

theorem isData_of_mem_references {cfg : EngineConfig} {v ref : Value} (hdata : v.IsData)
    (h : ref ∈ references cfg v) : ref.IsData := by
  have hsingle : ref ∈ (if namesNone v then [.str cfg.defaultPolicy.name] else [v]) →
      ref.IsData := by
    intro h
    split at h
    · rw [List.mem_singleton.1 h]
      exact isData_policyName cfg.defaultPolicy
    · rw [List.mem_singleton.1 h]
      exact hdata
  cases v with
  | list refs => exact Value.areData_iff.1 hdata ref h
  | tuple refs => exact Value.areData_iff.1 hdata ref h
  | _ => exact hsingle h

/-! ## Normal forms -/

theorem exists_normalizeCanonical {cfg : EngineConfig} {r : Registry} {m original : Mapping}
    (hw : ∃ d, Dimension.read cfg.grammar (m.get "width") = .ok d)
    (hh : ∃ d, Dimension.read cfg.grammar (m.get "height") = .ok d)
    (ho : Mapping.ofValue (m.get "original") = .ok original) :
    ∃ s, (normalizeCanonical cfg r m).result = .ok s := by
  obtain ⟨w, hw⟩ := hw
  obtain ⟨h, hh⟩ := hh
  have hq : resolveAll cfg r (references cfg (m.get "function")) =
      ⟨(resolveAll cfg r (references cfg (m.get "function"))).entries,
        .ok ((references cfg (m.get "function")).map (stepFor cfg r))⟩ := by
    rw [← resolveAll_result]
  exact ⟨_, by rw [normalizeCanonical_of_read hw hh hq ho]⟩

theorem canonical_yields {cfg : EngineConfig} {raw : Value} {separator : String}
    {ne : separator ≠ ""} (hsep : cfg.separator = .text separator ne) (hplain : raw.isPlain = true)
    (hdata : raw.IsData) :
    (canonical cfg raw).Yields fun m =>
      (∀ key ≠ "original", (m.get key).IsData) ∧ ∃ original, m.get "original" = .map original := by
  refine (entries_yields hsep hdata).bind fun m hm hholds => yields_pure ?_
  have hentries := plainEntries_entries hplain hm
  rw [withSnapshot_plain hentries]
  refine ⟨fun key hkey => ?_, _, Mapping.get_insert_self "original" _ m⟩
  rw [Mapping.get_insert_of_ne hkey]
  exact Value.isData_get hholds key

/-- A plain size that is data has a normal form whose steps run policies and which is ready for
them, or has too many separators. -/
theorem normalize_yields {cfg : EngineConfig} {r : Registry} {raw : Value} {separator : String}
    {ne : separator ≠ ""} (hsep : cfg.separator = .text separator ne) (hcustom : r.custom = [])
    (hplain : raw.isPlain = true) (hdata : raw.IsData) :
    (normalize cfg r raw).Yields fun s => s.Ready ∧ ∀ step ∈ s.queue, step.runsPolicy = true := by
  have hready : ∀ s, (normalize cfg r raw).result = .ok s → s.Ready :=
    fun s => ready_of_normalize hplain (Value.printable_of_isData raw hdata)
  rw [normalize_plain hplain] at hready ⊢
  refine (canonical_yields hsep hplain hdata).bind fun m hm hentries => ?_
  obtain ⟨hget, original, horiginal⟩ := hentries
  obtain ⟨s, hs⟩ := exists_normalizeCanonical (r := r) (m := m)
    (Dimension.exists_read _ (hget "width" (by decide)))
    (Dimension.exists_read _ (hget "height" (by decide)))
    (by rw [horiginal, Mapping.ofValue_map])
  refine yields_of_ok hs ⟨hready s (Logged.bind_result_eq_ok_iff.2 ⟨m, hm, hs⟩), ?_⟩
  obtain ⟨-, -, hqueue, -, -⟩ := normalizeCanonical_eq_ok hs
  intro step hstep
  rw [hqueue] at hstep
  obtain ⟨ref, href, rfl⟩ := List.mem_map.1 hstep
  exact runsPolicy_stepFor cfg hcustom
    (isData_of_mem_references (hget "function" (by decide)) href)

end Size

end ImageSizing
