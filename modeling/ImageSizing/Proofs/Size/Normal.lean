import ImageSizing.Size.Normal

/-!
# Resolved references

Every reference resolves to one step, `stepFor`, with or without a warning.  A queue of
steps resolves to itself without a word, so that normalizing a specification a second time
changes nothing but the snapshot that is pinned on it.

    (resolveAll cfg r refs).result = .ok (refs.map (stepFor cfg r))   (resolveAll_result)
    normalize cfg r s.toValue pinned = pure { s with original := pinned.getD s.original }
-/

namespace ImageSizing

/-- A step that runs a policy has it as its action. -/
theorem Step.exists_policy {s : Step} (h : s.runsPolicy = true) : ∃ p, s.action = .builtIn p := by
  unfold runsPolicy at h
  cases haction : s.action with
  | builtIn p => exact ⟨p, rfl⟩
  | custom c =>
    rw [haction] at h
    cases h

namespace Size

/-- The name of a policy stands for the policy. -/
theorem stepOf?_name (r : Registry) (p : Policy) : stepOf? r (.str p.name) = some (.ofPolicy p) := by
  cases p <;> rfl

theorem references_name (cfg : EngineConfig) (p : Policy) :
    references cfg (.str p.name) = [.str p.name] := by
  cases p <;> rfl

def stepFor (cfg : EngineConfig) (r : Registry) (ref : Value) : Step :=
  (stepOf? r ref).getD (.ofPolicy cfg.defaultPolicy)

@[simp] theorem stepFor_step (cfg : EngineConfig) (r : Registry) (s : Step) :
    stepFor cfg r (.step s) = s := rfl

theorem resolve_result (cfg : EngineConfig) (r : Registry) (ref : Value) :
    (resolve cfg r ref).result = .ok (stepFor cfg r ref) := by
  unfold resolve stepFor
  cases stepOf? r ref <;> rfl

theorem resolveAll_cons (cfg : EngineConfig) (r : Registry) (ref : Value) (refs : List Value) :
    resolveAll cfg r (ref :: refs) =
      ⟨(resolve cfg r ref).entries ++ (resolveAll cfg r refs).entries,
        (resolveAll cfg r refs).result.map (stepFor cfg r ref :: ·)⟩ := by
  show (resolve cfg r ref >>= fun s => resolveAll cfg r refs >>= fun ss => pure (s :: ss)) = _
  rw [Logged.bind_ok _ (resolve_result cfg r ref)]
  cases h : (resolveAll cfg r refs).result with
  | ok ss =>
    rw [Logged.bind_ok _ h]
    simp [pure, Logged.pure, Except.map]
  | error e =>
    rw [Logged.bind_error _ h]
    rfl

theorem resolveAll_result (cfg : EngineConfig) (r : Registry) (refs : List Value) :
    (resolveAll cfg r refs).result = .ok (refs.map (stepFor cfg r)) := by
  induction refs with
  | nil => rfl
  | cons ref refs ih =>
    rw [resolveAll_cons, ih]
    rfl

/-- Steps are resolved already. -/
theorem resolveAll_steps (cfg : EngineConfig) (r : Registry) (steps : List Step) :
    resolveAll cfg r (steps.map .step) = pure steps := by
  induction steps with
  | nil => rfl
  | cons s steps ih =>
    rw [List.map_cons, resolveAll_cons, ih]
    rfl

/-- What the normal form of a specification is: its axes read, its references resolved, and the
rest as it was. -/
theorem normalizeSpec_eq_ok {cfg : EngineConfig} {r : Registry} {width height : Value}
    {refs : List Value} {original extras : Mapping} {s : SizeSpec}
    (h : (normalizeSpec cfg r width height refs original extras).result = .ok s) :
    Dimension.read cfg.grammar width = .ok s.width ∧
      Dimension.read cfg.grammar height = .ok s.height ∧
      s.queue = refs.map (stepFor cfg r) ∧ s.original = original ∧ s.extras = extras := by
  unfold normalizeSpec at h
  obtain ⟨w, hw, h⟩ := Logged.bind_result_eq_ok_iff.1 h
  obtain ⟨h', hh, h⟩ := Logged.bind_result_eq_ok_iff.1 h
  obtain ⟨queue, hq, h⟩ := Logged.bind_result_eq_ok_iff.1 h
  rw [Logged.ofFaulty_result_eq_ok_iff] at hw hh
  rw [resolveAll_result] at hq
  cases hq
  cases h
  exact ⟨hw, hh, rfl, rfl, rfl⟩

/-- What the normal form of a canonical size is: the entries under the reserved keys read, and
the other entries as they were. -/
theorem normalizeCanonical_eq_ok {cfg : EngineConfig} {r : Registry} {m : Mapping} {s : SizeSpec}
    (h : (normalizeCanonical cfg r m).result = .ok s) :
    Dimension.read cfg.grammar (m.get "width") = .ok s.width ∧
      Dimension.read cfg.grammar (m.get "height") = .ok s.height ∧
      s.queue = (references cfg (m.get "function")).map (stepFor cfg r) ∧
      Mapping.ofValue (m.get "original") = .ok s.original ∧
      s.extras = m.filter fun e => isExtra e.1 := by
  unfold normalizeCanonical at h
  obtain ⟨w, hw, h⟩ := Logged.bind_result_eq_ok_iff.1 h
  obtain ⟨h', hh, h⟩ := Logged.bind_result_eq_ok_iff.1 h
  obtain ⟨queue, hq, h⟩ := Logged.bind_result_eq_ok_iff.1 h
  obtain ⟨original, ho, h⟩ := Logged.bind_result_eq_ok_iff.1 h
  rw [Logged.ofFaulty_result_eq_ok_iff] at hw hh ho
  rw [resolveAll_result] at hq
  cases hq
  cases h
  exact ⟨hw, hh, rfl, ho, rfl⟩

/-- A canonical size whose entries can be read has a normal form, after the warnings about its
references. -/
theorem normalizeCanonical_of_read {cfg : EngineConfig} {r : Registry} {m original : Mapping}
    {w h : Dimension} {queue : List Step} {l : List LogEntry}
    (hw : Dimension.read cfg.grammar (m.get "width") = .ok w)
    (hh : Dimension.read cfg.grammar (m.get "height") = .ok h)
    (hq : resolveAll cfg r (references cfg (m.get "function")) = ⟨l, .ok queue⟩)
    (ho : Mapping.ofValue (m.get "original") = .ok original) :
    normalizeCanonical cfg r m = ⟨l, .ok ⟨w, h, queue, original, m.filter fun e => isExtra e.1⟩⟩ := by
  unfold normalizeCanonical
  dsimp only
  rw [hw, hh, hq, ho]
  show (⟨[] ++ ([] ++ (l ++ ([] ++ []))), _⟩ : Logged SizeSpec) = _
  rw [List.append_nil, List.append_nil]
  rfl

theorem canonical_eq_ok {cfg : EngineConfig} {raw : Value} {m : Mapping}
    (h : (canonical cfg raw).result = .ok m) :
    ∃ m', (entries cfg raw).result = .ok m' ∧ m = withSnapshot m' := by
  obtain ⟨m', hm', h⟩ := Logged.bind_result_eq_ok_iff.1 h
  cases h
  exact ⟨m', hm', rfl⟩

/-- A size that is no specification is normalized through its canonical form. -/
theorem normalize_of_not_spec {raw : Value} (hraw : ∀ w h fs o x, raw ≠ .spec w h fs o x)
    (cfg : EngineConfig) (r : Registry) (pinned : Option Mapping) :
    normalize cfg r raw pinned =
      canonical cfg raw >>= fun m => normalizeCanonical cfg r (pin pinned m) := by
  cases raw with
  | spec w h fs o x => exact absurd rfl (hraw w h fs o x)
  | _ => rfl

/-- The normal form of a specification whose axes read as they stand. -/
theorem normalizeSpec_dims (cfg : EngineConfig) (r : Registry) (w h : Dimension)
    (refs : List Value) (original extras : Mapping) :
    normalizeSpec cfg r w.toValue h.toValue refs original extras =
      ⟨(resolveAll cfg r refs).entries,
        .ok ⟨w, h, refs.map (stepFor cfg r), original, extras⟩⟩ := by
  show (resolveAll cfg r refs >>= fun queue => pure (⟨w, h, queue, original, extras⟩ : SizeSpec)) = _
  rw [Logged.bind_ok _ (resolveAll_result cfg r refs)]
  simp [pure, Logged.pure]

/-- A specification is its own normal form, up to the snapshot pinned on it. -/
theorem normalize_toValue (cfg : EngineConfig) (r : Registry) (s : SizeSpec)
    (pinned : Option Mapping) :
    normalize cfg r s.toValue pinned = pure { s with original := pinned.getD s.original } := by
  show normalizeSpec cfg r s.width.toValue s.height.toValue (s.queue.map .step ++ [])
    (pinned.getD s.original) s.extras = _
  rw [normalizeSpec_dims, List.append_nil, resolveAll_steps]
  simp [pure, Logged.pure, Function.comp_def]

end Size

end ImageSizing
