import ImageSizing.Proofs.Size.Recapture
import ImageSizing.Proofs.Engine.Order
import ImageSizing.Proofs.Logged.Thinned
import ImageSizing.Proofs.Value.Adjusted

/-!
# Defaults for what cannot be resolved

A reference that stands for no step becomes the default policy, with one warning (`reported`).  The
same size with the name of the default policy in the place of each such reference (`withDefaults`)
has the same normal form, up to the snapshot, and these warnings are missing.  They are written only
if both axes can be read, because axes are read before references are resolved:

    normalize_withDefaults : (normalize cfg r raw) is (normalize cfg r (raw.withDefaults)) with
      the warnings of the initial references, if axesReadable cfg raw
-/

namespace ImageSizing

def SizeSpec.withOriginal (s : SizeSpec) (original : Mapping) : SizeSpec := { s with original := original }

/-- Snapshots that agree on the axes, and of which both or none can be described. -/
structure Mapping.Resembles (o o' : Mapping) : Prop where
  width : o'.get "width" = o.get "width"
  height : o'.get "height" = o.get "height"
  describable : Engine.describable o' = Engine.describable o

namespace Size

variable (cfg : EngineConfig) (r : Registry)

/-! ## References -/

/-- The warnings about those of some references that stand for no step. -/
def reported (refs : List Value) : List LogEntry :=
  (refs.filter fun ref => (stepOf? r ref).isNone).map fun ref => .warning (warningFor cfg r ref)

/-- A reference, or the name of the default policy if it stands for no step. -/
def defaulted (ref : Value) : Value :=
  if (stepOf? r ref).isSome then ref else .str cfg.defaultPolicy.name

theorem reported_cons (ref : Value) (refs : List Value) :
    reported cfg r (ref :: refs) = (resolve cfg r ref).entries ++ reported cfg r refs := by
  unfold reported resolve
  rw [List.filter_cons]
  cases stepOf? r ref with
  | some s => rfl
  | none => rfl

theorem reported_append (refs refs' : List Value) :
    reported cfg r (refs ++ refs') = reported cfg r refs ++ reported cfg r refs' := by
  unfold reported
  rw [List.filter_append, List.map_append]

theorem reported_steps (steps : List Step) : reported cfg r (steps.map .step) = [] := by
  have hnone : (steps.map Value.step).filter (fun ref => (stepOf? r ref).isNone) = [] := by
    refine List.filter_eq_nil_iff.2 fun v hv => ?_
    obtain ⟨s, -, rfl⟩ := List.mem_map.1 hv
    exact Bool.false_ne_true
  unfold reported
  rw [hnone]
  rfl

theorem map_stepFor_steps (steps : List Step) : (steps.map Value.step).map (stepFor cfg r) = steps := by
  rw [List.map_map]
  exact List.map_id steps

/-- Every reference is resolved, and warned about once if it stands for no step. -/
theorem resolveAll_eq (refs : List Value) :
    resolveAll cfg r refs = ⟨reported cfg r refs, .ok (refs.map (stepFor cfg r))⟩ := by
  have hentries : (resolveAll cfg r refs).entries = reported cfg r refs := by
    induction refs with
    | nil => rfl
    | cons ref refs ih => rw [resolveAll_cons, reported_cons, ← ih]
  rw [← hentries, ← resolveAll_result]

variable {cfg r}

theorem defaulted_of_some {ref : Value} {s : Step} (h : stepOf? r ref = some s) :
    defaulted cfg r ref = ref := if_pos (by rw [h]; rfl)

theorem defaulted_of_none {ref : Value} (h : stepOf? r ref = none) :
    defaulted cfg r ref = .str cfg.defaultPolicy.name := if_neg (by rw [h]; decide)

theorem stepOf?_defaulted (ref : Value) :
    stepOf? r (defaulted cfg r ref) = some (stepFor cfg r ref) := by
  unfold stepFor
  cases h : stepOf? r ref with
  | some s => rw [defaulted_of_some h, h, Option.getD_some]
  | none => rw [defaulted_of_none h, stepOf?_name, Option.getD_none]

theorem map_stepFor_defaulted (refs : List Value) :
    (refs.map (defaulted cfg r)).map (stepFor cfg r) = refs.map (stepFor cfg r) := by
  rw [List.map_map]
  refine List.map_congr_left fun ref _ => ?_
  show (stepOf? r (defaulted cfg r ref)).getD _ = _
  rw [stepOf?_defaulted, Option.getD_some]

theorem reported_defaulted (refs : List Value) : reported cfg r (refs.map (defaulted cfg r)) = [] := by
  have hnone : (refs.map (defaulted cfg r)).filter (fun ref => (stepOf? r ref).isNone) = [] := by
    refine List.filter_eq_nil_iff.2 fun v hv => ?_
    obtain ⟨ref, -, rfl⟩ := List.mem_map.1 hv
    rw [stepOf?_defaulted]
    exact Bool.false_ne_true
  unfold reported
  rw [hnone]
  rfl

theorem defaulted_steps (steps : List Step) :
    (steps.map Value.step).map (defaulted cfg r) = steps.map .step := by
  rw [List.map_map]
  exact List.map_congr_left fun s _ => defaulted_of_some (s := s) rfl

theorem stepOf?_copy (ref : Value) : stepOf? r ref.copy = stepOf? r ref := by
  cases ref <;> rfl

theorem copy_defaulted (ref : Value) : (defaulted cfg r ref).copy = defaulted cfg r ref.copy := by
  cases h : stepOf? r ref with
  | some s => rw [defaulted_of_some h, defaulted_of_some ((stepOf?_copy ref).trans h)]
  | none =>
    rw [defaulted_of_none h, defaulted_of_none ((stepOf?_copy ref).trans h)]
    rfl

/-! ## Parts of a normal form -/

/-- Both axes, the width first. -/
def readAxes (g : Grammar) (width height : Value) : Except Fault (Dimension × Dimension) := do
  let w ← Dimension.read g width
  let h ← Dimension.read g height
  return (w, h)

variable (cfg r)

/-- A normal form from its parts: nothing is written if the axes cannot be read, and the references
are resolved before a snapshot that cannot be read is noticed. -/
def assembled (axes : Except Fault (Dimension × Dimension)) (refs : List Value)
    (original : Except Fault Mapping) (extras : Mapping) : Logged SizeSpec :=
  match axes with
  | .error f => .fail (.fault f)
  | .ok (w, h) => ⟨reported cfg r refs,
      match original with
      | .error f => .error (.fault f)
      | .ok o => .ok ⟨w, h, refs.map (stepFor cfg r), o, extras⟩⟩

theorem normalizeSpec_eq_assembled (width height : Value) (refs : List Value)
    (original extras : Mapping) :
    normalizeSpec cfg r width height refs original extras =
      assembled cfg r (readAxes cfg.grammar width height) refs (.ok original) extras := by
  unfold normalizeSpec readAxes assembled
  rw [resolveAll_eq]
  cases Dimension.read cfg.grammar width with
  | error f => rfl
  | ok w =>
    cases Dimension.read cfg.grammar height with
    | error f => rfl
    | ok h => exact congrArg (Logged.mk · _) (List.append_nil _)

theorem normalizeCanonical_eq_assembled (m : Mapping) :
    normalizeCanonical cfg r m =
      assembled cfg r (readAxes cfg.grammar (m.get "width") (m.get "height"))
        (references cfg (m.get "function")) (Mapping.ofValue (m.get "original"))
        (m.filter fun e => isExtra e.1) := by
  unfold normalizeCanonical readAxes assembled
  dsimp only
  rw [resolveAll_eq]
  cases Dimension.read cfg.grammar (m.get "width") with
  | error f => rfl
  | ok w =>
    cases Dimension.read cfg.grammar (m.get "height") with
    | error f => rfl
    | ok h =>
      cases Mapping.ofValue (m.get "original") with
      | error f => exact congrArg (Logged.mk · _) (List.append_nil _)
      | ok o => exact congrArg (Logged.mk · _) (List.append_nil _)

/-- Other references that resolve to the same steps without a word, and another snapshot. -/
theorem assembled_defaulted {R : Mapping → Mapping → Prop} {original original' : Except Fault Mapping}
    (h : (∃ f, original = .error f ∧ original' = .error f) ∨
      ∃ o o', original = .ok o ∧ original' = .ok o' ∧ R o o')
    (axes : Except Fault (Dimension × Dimension)) (refs : List Value) (extras : Mapping) :
    Thins (assembled cfg r axes refs original extras).entries
        (if axes.isOk then reported cfg r refs else [])
        (assembled cfg r axes (refs.map (defaulted cfg r)) original' extras).entries ∧
      EndAlike (fun s s' => R s.original s'.original ∧ s' = s.withOriginal s'.original)
        (assembled cfg r axes refs original extras).result
        (assembled cfg r axes (refs.map (defaulted cfg r)) original' extras).result := by
  cases axes with
  | error f => exact ⟨.nil, .failed (.refl _)⟩
  | ok axes =>
    obtain ⟨w, h'⟩ := axes
    unfold assembled
    dsimp only
    rw [reported_defaulted, map_stepFor_defaulted]
    refine ⟨.all _, ?_⟩
    rcases h with ⟨f, rfl, rfl⟩ | ⟨o, o', rfl, rfl, hR⟩
    · exact .failed (.refl _)
    · exact .returned ⟨hR, rfl⟩

/-! ## Sizes -/

/-- The entry under `function` with the default policy in the place of what stands for no step. -/
def defaultedEntry (v : Value) : Value :=
  match v with
  | .list refs => .list (refs.map (defaulted cfg r))
  | .tuple refs => .tuple (refs.map (defaulted cfg r))
  | v => if namesNone v then v else defaulted cfg r v

/-- A size with the name of the default policy in the place of each reference that stands for no
step. -/
def withDefaults : Value → Value
  | .spec w h fs o x => .spec w h (fs.map (defaulted cfg r)) o x
  | .map m => .map (Mapping.adjust "function" (defaultedEntry cfg r) m)
  | v => v

/-- Whether a size gets as far as having both axes read. -/
def axesReadable : Value → Bool
  | .spec w h _ _ _ => (readAxes cfg.grammar w h).isOk
  | raw =>
    match (canonical cfg raw).result with
    | .ok m => (readAxes cfg.grammar (m.get "width") (m.get "height")).isOk
    | .error _ => false

variable {cfg r}

theorem copyItems_map_defaulted (refs : List Value) :
    Value.copyItems (refs.map (defaulted cfg r)) = (Value.copyItems refs).map (defaulted cfg r) := by
  induction refs with
  | nil => rfl
  | cons ref refs ih =>
    show (defaulted cfg r ref).copy :: Value.copyItems (refs.map (defaulted cfg r)) = _
    rw [copy_defaulted, ih]
    rfl

/-- An entry that is no sequence of references but one at most. -/
def IsSingle (v : Value) : Prop := ∀ refs, v ≠ .list refs ∧ v ≠ .tuple refs

theorem sequence_cases (v : Value) :
    (∃ refs, v = .list refs) ∨ (∃ refs, v = .tuple refs) ∨ IsSingle v := by
  cases v with
  | list refs => exact .inl ⟨refs, rfl⟩
  | tuple refs => exact .inr (.inl ⟨refs, rfl⟩)
  | _ => exact .inr (.inr fun refs => ⟨Value.noConfusion, Value.noConfusion⟩)

theorem IsSingle.copy {v : Value} (h : IsSingle v) : IsSingle v.copy := by
  cases v with
  | list refs => exact absurd rfl (h refs).1
  | tuple refs => exact absurd rfl (h refs).2
  | _ => exact fun refs => ⟨Value.noConfusion, Value.noConfusion⟩

theorem namesNone_copy (v : Value) : namesNone v.copy = namesNone v := by
  cases v <;> rfl

theorem defaultedEntry_single {v : Value} (h : IsSingle v) :
    defaultedEntry cfg r v = if namesNone v = true then v else defaulted cfg r v := by
  cases v with
  | list refs => exact absurd rfl (h refs).1
  | tuple refs => exact absurd rfl (h refs).2
  | _ => rfl

theorem references_single {v : Value} (h : IsSingle v) :
    references cfg v = if namesNone v = true then [.str cfg.defaultPolicy.name] else [v] := by
  cases v with
  | list refs => exact absurd rfl (h refs).1
  | tuple refs => exact absurd rfl (h refs).2
  | _ => rfl

theorem copy_defaultedEntry (v : Value) :
    (defaultedEntry cfg r v).copy = defaultedEntry cfg r v.copy := by
  rcases sequence_cases v with ⟨refs, rfl⟩ | ⟨refs, rfl⟩ | h
  · exact congrArg Value.list (copyItems_map_defaulted refs)
  · exact congrArg Value.list (copyItems_map_defaulted refs)
  · rw [defaultedEntry_single h, defaultedEntry_single h.copy, namesNone_copy, apply_ite Value.copy,
      copy_defaulted]

theorem references_defaultedEntry (v : Value) :
    references cfg (defaultedEntry cfg r v) = (references cfg v).map (defaulted cfg r) := by
  rcases sequence_cases v with ⟨refs, rfl⟩ | ⟨refs, rfl⟩ | h
  · rfl
  · rfl
  · rw [defaultedEntry_single h]
    cases hnames : namesNone v with
    | true =>
      rw [if_pos rfl, references_single h, if_pos hnames, List.map_singleton,
        defaulted_of_some (stepOf?_name r cfg.defaultPolicy)]
    | false =>
      rw [if_neg Bool.false_ne_true, references_single h, hnames, if_neg Bool.false_ne_true,
        List.map_singleton]
      cases hstep : stepOf? r v with
      | some s =>
        rw [defaulted_of_some hstep, references_single h, hnames, if_neg Bool.false_ne_true]
      | none => rw [defaulted_of_none hstep, references_name]

/-- The entry can be printed as it could before, if what is replaced could. -/
theorem printable_defaultedEntry {v : Value}
    (h : ∀ ref ∈ references cfg v, stepOf? r ref = none → ref.printable = true) :
    (defaultedEntry cfg r v).printable = v.printable := by
  have hone : ∀ ref, (stepOf? r ref = none → ref.printable = true) →
      (defaulted cfg r ref).printable = ref.printable := by
    intro ref href
    cases hstep : stepOf? r ref with
    | some s => rw [defaulted_of_some hstep]
    | none =>
      rw [defaulted_of_none hstep, href hstep]
      rfl
  have hitems : ∀ refs : List Value, (∀ ref ∈ refs, stepOf? r ref = none → ref.printable = true) →
      Value.printableItems (refs.map (defaulted cfg r)) = Value.printableItems refs := by
    intro refs hrefs
    induction refs with
    | nil => rfl
    | cons ref refs ih =>
      show ((defaulted cfg r ref).printable && Value.printableItems (refs.map (defaulted cfg r))) =
        (ref.printable && Value.printableItems refs)
      rw [hone ref (hrefs ref List.mem_cons_self), ih fun v hv => hrefs v (List.mem_cons_of_mem _ hv)]
  rcases sequence_cases v with ⟨refs, rfl⟩ | ⟨refs, rfl⟩ | hv
  · exact hitems refs h
  · exact hitems refs h
  · rw [references_single hv] at h
    rw [defaultedEntry_single hv]
    cases hnames : namesNone v with
    | true => rfl
    | false =>
      rw [hnames, if_neg Bool.false_ne_true] at h
      exact hone v (h v (List.mem_singleton.2 rfl))

/-! ## Canonical forms -/

/-- Two canonical forms with the same axes and extras, the second with defaults, and with a snapshot
that is like that of the first. -/
structure Defaulted (cfg : EngineConfig) (r : Registry) (m m' : Mapping) : Prop where
  width : m'.get "width" = m.get "width"
  height : m'.get "height" = m.get "height"
  function : m'.get "function" = defaultedEntry cfg r (m.get "function")
  extras : (m'.filter fun e => isExtra e.1) = m.filter fun e => isExtra e.1
  original : m'.get "original" = m.get "original" ∨
    ∃ o o' : Mapping, m.get "original" = .map o ∧ m'.get "original" = .map o' ∧ o.Resembles o'

variable {m : Mapping}

theorem erase_adjust (m : Mapping) :
    (m.adjust "function" (defaultedEntry cfg r)).erase "original" =
      (m.erase "original").adjust "function" (defaultedEntry cfg r) :=
  Mapping.filter_adjust_of_selected (p := fun k => !Mapping.isKey "original" k) rfl m

/-- A mapping with defaults, both of them without a snapshot or both with the same one. -/
theorem defaulted_adjust (m : Mapping) :
    Defaulted cfg r m (m.adjust "function" (defaultedEntry cfg r)) where
  width := Mapping.get_adjust_of_ne (by decide) m
  height := Mapping.get_adjust_of_ne (by decide) m
  function := Mapping.get_adjust_self rfl m
  extras := Mapping.filter_adjust rfl m
  original := .inl (Mapping.get_adjust_of_ne (by decide) m)

theorem resembles_adjust
    (h : ∀ ref ∈ references cfg (m.get "function"), stepOf? r ref = none → ref.printable = true) :
    m.Resembles (m.adjust "function" (defaultedEntry cfg r)) where
  width := Mapping.get_adjust_of_ne (by decide) m
  height := Mapping.get_adjust_of_ne (by decide) m
  describable := by
    show Value.printableEntries (Mapping.erase _ "original") = _
    have hentry := printable_defaultedEntry h
    have hget : (m.erase "original").get "function" = m.get "function" :=
      Mapping.get_erase_of_ne (by decide) m
    rw [← hget] at hentry
    rw [erase_adjust]
    exact Mapping.printable_adjust hentry

/-- A snapshot that is taken of a mapping with defaults is like that of the mapping. -/
theorem defaulted_withSnapshot (hcopy : Value.copyEntries m = m)
    (h : ∀ ref ∈ references cfg (m.get "function"), stepOf? r ref = none → ref.printable = true) :
    Defaulted cfg r (withSnapshot m) (withSnapshot (m.adjust "function" (defaultedEntry cfg r))) := by
  have hadjusted : Defaulted cfg r m (m.adjust "function" (defaultedEntry cfg r)) := defaulted_adjust m
  have hsame : (m.adjust "function" (defaultedEntry cfg r)).get "original" = m.get "original" :=
    Mapping.get_adjust_of_ne (by decide) m
  cases htruthy : (m.get "original").isTruthy with
  | true =>
    rw [withSnapshot_of_truthy htruthy, withSnapshot_of_truthy (by rw [hsame, htruthy])]
    exact hadjusted
  | false =>
    rw [withSnapshot_of_falsy htruthy, withSnapshot_of_falsy (by rw [hsame, htruthy])]
    have hother : ∀ {key : String} (n : Mapping) (v : Value), key ≠ "original" →
        (Mapping.insert "original" v n).get key = n.get key := fun n v hne =>
      Mapping.get_insert_of_ne hne v n
    refine ⟨?_, ?_, ?_, ?_, .inr ⟨_, _, Mapping.get_insert_self _ _ _, Mapping.get_insert_self _ _ _, ?_⟩⟩
    · rw [hother _ _ (by decide), hother _ _ (by decide), hadjusted.width]
    · rw [hother _ _ (by decide), hother _ _ (by decide), hadjusted.height]
    · rw [hother _ _ (by decide), hother _ _ (by decide), hadjusted.function]
    · rw [Mapping.filter_insert (p := isExtra) rfl, Mapping.filter_insert (p := isExtra) rfl, hadjusted.extras]
    · rw [erase_adjust, Mapping.copyEntries_adjust copy_defaultedEntry, Value.copyEntries_erase, hcopy]
      refine resembles_adjust ?_
      rw [Mapping.get_erase_of_ne (by decide)]
      exact h

/-- Sizes that are neither specifications nor mappings name no function. -/
theorem get_function_canonical {raw : Value} (hspec : ∀ w h fs o x, raw ≠ .spec w h fs o x)
    (hmap : ∀ m, raw ≠ .map m) (h : (canonical cfg raw).result = .ok m) :
    m.get "function" = .nothing := by
  obtain ⟨m', hm', rfl⟩ := canonical_eq_ok h
  have hnothing : m'.get "function" = .nothing := by
    cases raw with
    | spec w h' fs o x => exact absurd rfl (hspec w h' fs o x)
    | map m => exact absurd rfl (hmap m)
    | str raw => rcases ofText_eq_ok hm' with rfl | ⟨w, h', rfl⟩ <;> rfl
    | _ =>
      cases hm'
      rfl
  unfold withSnapshot
  split
  · exact hnothing
  · rw [Mapping.get_insert_of_ne (by decide), hnothing]

theorem withDefaults_of_not_map {raw : Value} (hspec : ∀ w h fs o x, raw ≠ .spec w h fs o x)
    (hmap : ∀ m, raw ≠ .map m) : withDefaults cfg r raw = raw := by
  cases raw with
  | spec w h fs o x => exact absurd rfl (hspec w h fs o x)
  | map m => exact absurd rfl (hmap m)
  | _ => rfl

/-- The canonical form of a size with defaults. -/
theorem canonical_withDefaults {raw : Value} (hspec : ∀ w h fs o x, raw ≠ .spec w h fs o x)
    (hm : (canonical cfg raw).result = .ok m)
    (h : ∀ ref ∈ references cfg (m.get "function"), stepOf? r ref = none → ref.printable = true) :
    ∃ m', canonical cfg (withDefaults cfg r raw) = pure m' ∧ Defaulted cfg r m m' := by
  by_cases hmap : ∃ entries, raw = .map entries
  · obtain ⟨entries, rfl⟩ := hmap
    cases hm
    refine ⟨_, rfl, ?_⟩
    rw [Mapping.copyEntries_adjust copy_defaultedEntry]
    refine defaulted_withSnapshot (Value.copyEntries_copyEntries entries) ?_
    intro ref href
    refine h ref ?_
    unfold withSnapshot
    split
    · exact href
    · rwa [Mapping.get_insert_of_ne (by decide)]
  · have hne : ∀ m, raw ≠ .map m := fun m hm => hmap ⟨m, hm⟩
    have hfunction := get_function_canonical hspec hne hm
    refine ⟨m, ?_, rfl, rfl, ?_, rfl, .inl rfl⟩
    · rw [withDefaults_of_not_map hspec hne, canonical_eq_pure hm]
    · rw [hfunction]
      rfl

/-! ## Normal forms -/

theorem ofValue_original {m m' : Mapping} (h : Defaulted cfg r m m') :
    (∃ f, Mapping.ofValue (m.get "original") = .error f ∧ Mapping.ofValue (m'.get "original") = .error f) ∨
      ∃ o o', Mapping.ofValue (m.get "original") = .ok o ∧ Mapping.ofValue (m'.get "original") = .ok o' ∧
        o.Resembles o' := by
  rcases h.original with hsame | ⟨o, o', ho, ho', hlike⟩
  · rw [hsame]
    cases Mapping.ofValue (m.get "original") with
    | error f => exact .inl ⟨f, rfl, rfl⟩
    | ok o => exact .inr ⟨o, o, rfl, rfl, rfl, rfl, rfl⟩
  · rw [ho, ho', Mapping.ofValue_map, Mapping.ofValue_map]
    exact .inr ⟨o, o', rfl, rfl, hlike⟩

theorem initialReferences_of_canonical {raw : Value} (hspec : ∀ w h fs o x, raw ≠ .spec w h fs o x)
    (hm : canonical cfg raw = pure m) : initialReferences cfg raw = references cfg (m.get "function") ∧
      axesReadable cfg raw = (readAxes cfg.grammar (m.get "width") (m.get "height")).isOk := by
  have hrefs : (match (canonical cfg raw).result with
      | .ok m => references cfg (m.get "function")
      | .error _ => []) = references cfg (m.get "function") := by rw [hm]; rfl
  have haxes : (match (canonical cfg raw).result with
      | .ok m => (readAxes cfg.grammar (m.get "width") (m.get "height")).isOk
      | .error _ => false) = (readAxes cfg.grammar (m.get "width") (m.get "height")).isOk := by rw [hm]; rfl
  cases raw with
  | spec w h fs o x => exact absurd rfl (hspec w h fs o x)
  | _ => exact ⟨hrefs, haxes⟩

theorem axesReadable_of_error {raw : Value} (hspec : ∀ w h fs o x, raw ≠ .spec w h fs o x) {f : Failure}
    (hf : (canonical cfg raw).result = .error f) : axesReadable cfg raw = false := by
  have hnone : (match (canonical cfg raw).result with
    | .ok m => (readAxes cfg.grammar (m.get "width") (m.get "height")).isOk
    | .error _ => false) = false := by rw [hf]
  cases raw with
  | spec w h fs o x => exact absurd rfl (hspec w h fs o x)
  | _ => exact hnone

/-- With defaults a size has the same normal form, up to the snapshot, and the warnings about its
references are missing. -/
theorem normalize_withDefaults {raw : Value}
    (h : ∀ ref ∈ initialReferences cfg raw, stepOf? r ref = none → ref.printable = true) :
    Thins (normalize cfg r raw).entries
        (if axesReadable cfg raw then reported cfg r (initialReferences cfg raw) else [])
        (normalize cfg r (withDefaults cfg r raw)).entries ∧
      EndAlike (fun s s' => s.original.Resembles s'.original ∧ s' = s.withOriginal s'.original)
        (normalize cfg r raw).result (normalize cfg r (withDefaults cfg r raw)).result := by
  by_cases hraw : ∃ w h fs o x, raw = .spec w h fs o x
  · obtain ⟨w, h', fs, o, x, rfl⟩ := hraw
    show Thins (normalizeSpec cfg r w h' fs o x).entries
      (if (readAxes cfg.grammar w h').isOk then reported cfg r fs else [])
      (normalizeSpec cfg r w h' (fs.map (defaulted cfg r)) o x).entries ∧
      EndAlike _ (normalizeSpec cfg r w h' fs o x).result
        (normalizeSpec cfg r w h' (fs.map (defaulted cfg r)) o x).result
    rw [normalizeSpec_eq_assembled, normalizeSpec_eq_assembled]
    exact assembled_defaulted cfg r (.inr ⟨o, o, rfl, rfl, rfl, rfl, rfl⟩) _ fs x
  · have hspec : ∀ w h fs o x, raw ≠ .spec w h fs o x := fun w h fs o x heq => hraw ⟨w, h, fs, o, x, heq⟩
    have hspec' : ∀ w h fs o x, withDefaults cfg r raw ≠ .spec w h fs o x := by
      cases raw with
      | spec w h' fs o x => exact absurd rfl (hspec w h' fs o x)
      | _ => exact fun _ _ _ _ _ => Value.noConfusion
    rw [normalize_of_not_spec hspec, normalize_of_not_spec hspec']
    cases hm : (canonical cfg raw).result with
    | ok m =>
      obtain ⟨hrefs, haxes⟩ := initialReferences_of_canonical hspec (canonical_eq_pure hm)
      rw [hrefs] at h
      obtain ⟨m', hm', hdefaulted⟩ := canonical_withDefaults hspec hm h
      rw [canonical_eq_pure hm, hm', hrefs, haxes]
      show Thins (normalizeCanonical cfg r m).entries _ (normalizeCanonical cfg r m').entries ∧
        EndAlike _ (normalizeCanonical cfg r m).result (normalizeCanonical cfg r m').result
      rw [normalizeCanonical_eq_assembled, normalizeCanonical_eq_assembled, hdefaulted.width,
        hdefaulted.height, hdefaulted.function, hdefaulted.extras, references_defaultedEntry]
      exact assembled_defaulted cfg r (ofValue_original hdefaulted) _ _ _
    | error f =>
      -- only a text has no canonical form, and a text stays as it is
      have hsame : withDefaults cfg r raw = raw := by
        cases raw with
        | spec w h' fs o x => exact absurd rfl (hspec w h' fs o x)
        | map m => cases hm
        | _ => rfl
      rw [hsame, axesReadable_of_error hspec hm, Logged.bind_error _ hm]
      exact ⟨.refl _, .failed (.refl f)⟩

end Size

end ImageSizing
