import ImageSizing.Batch.Options
import ImageSizing.Proofs.Engine.BuiltIn
import ImageSizing.Proofs.Engine.Elaboration
import ImageSizing.Proofs.Size.Copies

/-!
# The function of a batch

A batch puts its function into the canonical form of a size where that names none, and the
engine applies its default policy where a size names none.  On sizes whose references are all
understood as policies the two come to the same (`withFunction_toPixels`), as far as they
agree on what naming none means and as far as the canonical form says what the size said:

- an entry that is there but blank names no function for the engine, and the batch takes it
  for one, so the engine's own default applies and not the function of the batch;
- a specification with an empty queue asks for nothing to be done, but its canonical form has
  no entry for the queue, and so the function of the batch is applied to it.

A queue of policies runs alike under every default (`drain_withDefault`).
-/

namespace ImageSizing

namespace Size

variable {cfg : EngineConfig} {r : Registry}

/-- References that stand for policies, without a warning. -/
def Understood (r : Registry) (refs : List Value) : Prop :=
  ∀ ref ∈ refs, ∃ step, stepOf? r ref = some step ∧ step.runsPolicy = true

/-- An entry that is there and names no function. -/
def isBlank : Value → Bool
  | .bool b => !b
  | .str s => s.isEmpty
  | _ => false

/-- Understood references resolve without a word, whatever the default is. -/
theorem resolveAll_understood {refs : List Value} (h : Understood r refs) :
    resolveAll cfg r refs = pure (refs.filterMap (stepOf? r)) := by
  induction refs with
  | nil => rfl
  | cons ref refs ih =>
    obtain ⟨step, hstep, _⟩ := h ref List.mem_cons_self
    have hresolve : resolve cfg r ref = pure step := by
      unfold resolve
      rw [hstep]
    have hrest := ih fun other hother => h other (List.mem_cons_of_mem _ hother)
    rw [List.filterMap_cons_some hstep]
    show (resolve cfg r ref >>= fun s => resolveAll cfg r refs >>= fun ss => pure (s :: ss)) = _
    rw [hresolve, hrest]
    rfl

theorem runsPolicy_of_understood {refs : List Value} (h : Understood r refs) :
    ∀ step ∈ refs.filterMap (stepOf? r), step.runsPolicy = true := by
  intro step hstep
  obtain ⟨ref, href, hsome⟩ := List.mem_filterMap.1 hstep
  obtain ⟨step', hsome', hb⟩ := h ref href
  rw [hsome] at hsome'
  cases hsome'
  exact hb

/-- What stands for a step is no container. -/
theorem copy_of_stepOf? {ref : Value} {step : Step} (h : stepOf? r ref = some step) : ref.copy = ref := by
  cases ref with
  | list _ => cases h
  | tuple _ => cases h
  | map _ => cases h
  | _ => rfl

theorem copy_understood {refs : List Value} (h : Understood r refs) :
    (Value.list refs).copy = .list refs := by
  have hitems : Value.copyItems refs = refs := by
    induction refs with
    | nil => rfl
    | cons ref refs ih =>
      obtain ⟨step, hstep, _⟩ := h ref List.mem_cons_self
      show ref.copy :: Value.copyItems refs = _
      rw [copy_of_stepOf? hstep, ih fun other hother => h other (List.mem_cons_of_mem _ hother)]
  exact congrArg Value.list hitems

/-- The name of a policy is understood. -/
theorem understood_name (r : Registry) (p : Policy) : Understood r [.str p.name] := by
  intro ref href
  cases List.mem_singleton.1 href
  exact ⟨.ofPolicy p, stepOf?_name r p, rfl⟩

/-- A normal form has a queue of policies if its references are understood. -/
theorem runsPolicy_of_normalizeCanonical {m : Mapping} {s : SizeSpec}
    (h : Understood r (references cfg (m.get "function")))
    (hs : (normalizeCanonical cfg r m).result = .ok s) : ∀ step ∈ s.queue, step.runsPolicy = true := by
  obtain ⟨_, _, hqueue, _, _⟩ := normalizeCanonical_eq_ok hs
  have hsteps := resolveAll_result cfg r (references cfg (m.get "function"))
  rw [resolveAll_understood h] at hsteps
  have heq : (references cfg (m.get "function")).filterMap (stepOf? r) = s.queue := by
    rw [hqueue]
    exact Except.ok.inj hsteps
  rw [← heq]
  exact runsPolicy_of_understood h

/-- Where an entry is neither missing nor blank, the default does not matter. -/
theorem references_of_named {cfg' : EngineConfig} {v : Value} (hnothing : v ≠ .nothing)
    (hblank : isBlank v = false) : references cfg v = references cfg' v := by
  cases v with
  | nothing => exact absurd rfl hnothing
  | bool b =>
    cases b with
    | false => cases hblank
    | true => rfl
  | str s =>
    have hempty : s.isEmpty = false := hblank
    have hnames : namesNone (.str s) = false := hempty
    unfold references
    dsimp only
    rw [hnames, if_neg (by decide), if_neg (by decide)]
  | _ => rfl

end Size

namespace Engine

/-- The same engine with another default policy. -/
def withDefault (e : Engine) (p : Policy) : Engine :=
  { e with config := { e.config with defaultPolicy := p } }

variable {e : Engine} {p : Policy}

/-! ## Queues of policies -/

/-- No policy asks for the default, so a queue of them runs alike under every default. -/
theorem drain_withDefault {res res' : Resolver} {real : RealDimension} {original : Mapping} {n : Nat}
    {s : SizeSpec} (hb : ∀ step ∈ s.queue, step.runsPolicy = true) (ho : s.original = original) :
    (e.withDefault p).drain res' real original n s = e.drain res real original n s := by
  induction n generalizing s with
  | zero =>
    cases hq : s.queue with
    | nil => rw [drain_nil hq, drain_nil hq]
    | cons step rest =>
      rw [drain_zero hq, drain_zero hq]
      rfl
  | succ n ih =>
    cases hq : s.queue with
    | nil => rw [drain_nil hq, drain_nil hq]
    | cons step rest =>
      obtain ⟨policy, haction⟩ := Step.exists_policy (hb step (hq ▸ List.mem_cons_self))
      cases happly : policy.apply (s.withQueue rest) real with
      | mk l result =>
        cases result with
        | error f => rw [drain_builtIn_failed hq haction happly, drain_builtIn_failed hq haction happly]
        | ok t =>
          obtain ⟨width, height, rfl⟩ := Scaling.apply_axes (congrArg Logged.result happly)
          have hrest : ∀ step ∈ rest, step.runsPolicy = true :=
            fun step hstep => hb step (hq ▸ List.mem_cons_of_mem _ hstep)
          have hlater := ih (s := (s.withQueue rest).withSize width height) hrest ho
          rw [drain_builtIn hq haction happly ho, drain_builtIn hq haction happly ho, hlater]

/-- A size has the same pixels under another default as one with the same normal form, if its
queue is one of policies. -/
theorem toPixels_withDefault {a b : Value} (h : e.normalize a = (e.withDefault p).normalize b)
    (hq : ∀ s, (e.normalize a).result = .ok s → ∀ step ∈ s.queue, step.runsPolicy = true)
    (real : RealDimension) : e.toPixels a real = (e.withDefault p).toPixels b real := by
  have hcalculate : e.calculate a real = (e.withDefault p).calculate b real := by
    unfold calculate calculateWith
    rw [← h]
    cases hs : (e.normalize a).result with
    | error f => rw [Logged.bind_error _ hs, Logged.bind_error _ hs]
    | ok s =>
      have hdrain : (e.withDefault p).drain ((e.withDefault p).resolveAt (e.withDefault p).nesting)
          real s.original e.config.maxSteps.steps s =
            e.drain (e.resolveAt e.nesting) real s.original e.config.maxSteps.steps s :=
        drain_withDefault (hq s hs) rfl
      rw [Logged.bind_ok _ hs, Logged.bind_ok _ hs, ← hdrain]
      rfl
  unfold toPixels
  rw [hcalculate]

/-! ## Putting a function in -/

section Elaborated

variable {size : Value} {m : Mapping}

theorem isTruthy_name (p : Policy) : (Value.str p.name).isTruthy = true := by
  cases p <;> rfl

theorem withFunction_of_nothing (hm : e.elaborate size = pure m) (h : m.get "function" = .nothing) :
    e.withFunction size (.str p.name) = pure (.map (Mapping.insert "function" (.str p.name) m)) := by
  unfold withFunction
  rw [if_pos (isTruthy_name p), hm, Logged.pure_bind, h]

theorem withFunction_of_named (hm : e.elaborate size = pure m) (h : m.get "function" ≠ .nothing) :
    e.withFunction size (.str p.name) = pure (.map m) := by
  unfold withFunction
  rw [if_pos (isTruthy_name p), hm, Logged.pure_bind]
  split
  · rename_i hnothing
    exact absurd hnothing h
  · rfl

/-- A size that has no canonical form has no pixels either. -/
theorem withFunction_of_error {f : Failure} (hraw : ∀ w h fs o x, size ≠ .spec w h fs o x)
    (hm : (e.elaborate size).result = .error f) (real : RealDimension) :
    (e.withFunction size (.str p.name) >>= fun v => e.toPixels v real) =
      (e.withDefault p).toPixels size real := by
  have hnormal : (e.withDefault p).normalize size = ⟨(e.elaborate size).entries, .error f⟩ := by
    unfold normalize
    rw [Size.normalize_of_not_spec hraw]
    exact Logged.bind_error _ hm
  have hfunction : e.withFunction size (.str p.name) = ⟨(e.elaborate size).entries, .error f⟩ := by
    unfold withFunction
    rw [if_pos (isTruthy_name p), Logged.bind_error _ hm]
  unfold toPixels calculate calculateWith
  rw [hfunction, hnormal, Logged.bind_error _ rfl, Logged.bind_error _ rfl, Logged.bind_error _ rfl]

/-- A policy that is put in as the only reference does what it does as the default. -/
theorem toPixels_insert_function (hsettled : Size.Settled m) (hnothing : m.get "function" = .nothing)
    (real : RealDimension) :
    e.toPixels (.map (Mapping.insert "function" (.str p.name) m)) real =
      (e.withDefault p).toPixels (.map m) real := by
  have hput := hsettled.insert_function (v := .str p.name) rfl
  have hfunction : (Mapping.insert "function" (.str p.name) m).get "function" = .str p.name :=
    Mapping.get_insert_self _ _ _
  have hnormal : e.normalize (.map (Mapping.insert "function" (.str p.name) m)) =
      (e.withDefault p).normalize (.map m) := by
    unfold normalize
    rw [Size.normalize_settled hput, Size.normalize_settled hsettled]
    refine Size.normalizeCanonical_congr ?_ ?_ ?_ ?_ ?_
    · rw [Mapping.get_insert_of_ne (by decide)]
      rfl
    · rw [Mapping.get_insert_of_ne (by decide)]
      rfl
    · rw [hfunction, hnothing, Size.references_name]
      exact (Size.resolveAll_understood (Size.understood_name e.registry p)).trans
        (Size.resolveAll_understood (Size.understood_name e.registry p)).symm
    · exact Mapping.get_insert_of_ne (by decide) _ _
    · exact Mapping.filter_insert (by decide) _ _
  refine toPixels_withDefault hnormal ?_ real
  intro s hs
  unfold normalize at hs
  rw [Size.normalize_settled hput] at hs
  refine Size.runsPolicy_of_normalizeCanonical ?_ hs
  rw [hfunction, Size.references_name]
  exact Size.understood_name e.registry p

/-- References that are there and not blank leave no room for the default. -/
theorem toPixels_of_named (hsettled : Size.Settled m) (hnothing : m.get "function" ≠ .nothing)
    (hblank : Size.isBlank (m.get "function") = false)
    (hrefs : Size.Understood e.registry (Size.references e.config (m.get "function")))
    (real : RealDimension) :
    e.toPixels (.map m) real = (e.withDefault p).toPixels (.map m) real := by
  have hsame : Size.references e.config (m.get "function") =
      Size.references (e.withDefault p).config (m.get "function") :=
    Size.references_of_named hnothing hblank
  have hnormal : e.normalize (.map m) = (e.withDefault p).normalize (.map m) := by
    unfold normalize
    rw [Size.normalize_settled hsettled, Size.normalize_settled hsettled]
    refine Size.normalizeCanonical_congr rfl rfl ?_ rfl rfl
    rw [← hsame]
    exact (Size.resolveAll_understood hrefs).trans (Size.resolveAll_understood hrefs).symm
  refine toPixels_withDefault hnormal ?_ real
  intro s hs
  unfold normalize at hs
  rw [Size.normalize_settled hsettled] at hs
  exact Size.runsPolicy_of_normalizeCanonical hrefs hs

/-- The function of a batch is the default for the canonical form of a size, unless the entry there
is blank. -/
theorem withFunction_elaborated (hm : e.elaborate size = pure m) (hsettled : Size.Settled m)
    (hrefs : Size.Understood e.registry (Size.references e.config (m.get "function")))
    (real : RealDimension) :
    (e.withFunction size (.str p.name) >>= fun v => e.toPixels v real) =
      (if Size.isBlank (m.get "function") then e else e.withDefault p).toPixels (.map m) real := by
  by_cases hnothing : m.get "function" = .nothing
  · rw [withFunction_of_nothing hm hnothing, Logged.pure_bind, hnothing]
    exact toPixels_insert_function hsettled hnothing real
  · rw [withFunction_of_named hm hnothing, Logged.pure_bind]
    cases hblank : Size.isBlank (m.get "function") with
    | true => rfl
    | false => exact toPixels_of_named hsettled hnothing hblank hrefs real

end Elaborated

end Engine

/-! ## Specifications -/

namespace Size

variable {cfg : EngineConfig} {r : Registry} {s : SizeSpec} {refs : List Value}

/-- The canonical form of a specification with references in the place of its queue. -/
def referring (s : SizeSpec) (refs : List Value) : Mapping :=
  Mapping.insert "original" (.map s.original) (Mapping.insert "function" (.list refs) s.axesAndExtras)

theorem canonical_andThen (hs : s.Survives) (hne : refs ≠ []) :
    canonical cfg ((s.withQueue []).andThen refs) = pure (referring s refs) := by
  have hrefs : refs.isEmpty = false := List.isEmpty_eq_false_iff.2 hne
  have horiginal : s.original.isEmpty = false := List.isEmpty_eq_false_iff.2 hs.original
  have hspec : ofSpec s.width.toValue s.height.toValue refs s.original s.extras =
      .ok (referring s refs) := by
    show Except.ok (if s.original.isEmpty = true then
        (if refs.isEmpty = true then s.axesAndExtras else
          Mapping.insert "function" (.list refs) s.axesAndExtras)
      else Mapping.insert "original" (.map (Value.copyEntries s.original))
        (if refs.isEmpty = true then s.axesAndExtras else
          Mapping.insert "function" (.list refs) s.axesAndExtras)) = _
    rw [horiginal, hrefs, hs.originalCopied]
    rfl
  have hpresent : ((referring s refs).get "original").isTruthy = true := by
    unfold referring
    rw [Mapping.get_insert_self]
    exact isTruthy_map hs.original
  show (Logged.ofFaulty (ofSpec s.width.toValue s.height.toValue refs s.original s.extras) >>=
    fun m => pure (withSnapshot m)) = _
  rw [hspec]
  show pure (withSnapshot (referring s refs)) = _
  rw [withSnapshot_of_truthy hpresent]

theorem get_function_referring : (referring s refs).get "function" = .list refs := by
  unfold referring
  rw [Mapping.get_insert_of_ne (by decide), Mapping.get_insert_self]

theorem filter_referring (hs : s.Survives) (hd : Mapping.Distinct s.extras) :
    ((referring s refs).filter fun e => isExtra e.1) = s.extras := by
  unfold referring
  rw [Mapping.filter_insert (by decide), Mapping.filter_insert (by decide),
    filter_axesAndExtras ⟨hs.unreserved, hd⟩, hs.copied]

theorem settled_referring (hs : s.Survives) (hd : Mapping.Distinct s.extras)
    (hrefs : Understood r refs) : Settled (referring s refs) := by
  have horiginal : (referring s refs).get "original" = .map s.original := Mapping.get_insert_self _ _ _
  refine ⟨?_, ?_, ?_, ?_⟩
  · rw [horiginal]
    exact isTruthy_map hs.original
  · rw [get_function_referring]
    exact copy_understood hrefs
  · rw [horiginal]
    exact congrArg Value.map hs.originalCopied
  · rw [filter_referring hs hd]
    exact hs.copied

/-- A specification that survives comes back with the references that it was given. -/
theorem normalize_referring (hs : s.Survives) (hd : Mapping.Distinct s.extras)
    (hrefs : Understood r refs) :
    normalize cfg r (.map (referring s refs)) = normalize cfg r ((s.withQueue []).andThen refs) := by
  have hproper : s.Proper := ⟨hs.unreserved, hd⟩
  have hwidth : Dimension.read cfg.grammar ((referring s refs).get "width") = .ok s.width := by
    unfold referring
    rw [Mapping.get_insert_of_ne (by decide), Mapping.get_insert_of_ne (by decide),
      get_width_axesAndExtras hproper]
    exact congrArg Except.ok hs.width
  have hheight : Dimension.read cfg.grammar ((referring s refs).get "height") = .ok s.height := by
    unfold referring
    rw [Mapping.get_insert_of_ne (by decide), Mapping.get_insert_of_ne (by decide),
      get_height_axesAndExtras hproper]
    exact congrArg Except.ok hs.height
  have hqueue : resolveAll cfg r (references cfg ((referring s refs).get "function")) =
      pure (refs.filterMap (stepOf? r)) := by
    rw [get_function_referring]
    exact resolveAll_understood hrefs
  have horiginal : Mapping.ofValue ((referring s refs).get "original") = .ok s.original := by
    unfold referring
    rw [Mapping.get_insert_self, Mapping.ofValue_map]
  rw [normalize_settled (settled_referring hs hd hrefs), normalizeCanonical_of_read hwidth hheight hqueue
    horiginal, filter_referring hs hd]
  show _ = (resolveAll cfg r refs >>= fun queue =>
    pure (⟨s.width, s.height, queue, s.original, s.extras⟩ : SizeSpec))
  rw [resolveAll_understood hrefs]
  rfl

/-- The canonical form of a specification without steps is settled, and it has no entry for them. -/
theorem settled_elaborated (hs : s.Proper) (hq : s.queue = []) :
    Settled s.elaborated ∧ s.elaborated.get "function" = .nothing := by
  have hfunction : s.elaborated.get "function" = .nothing := by
    rw [elaborated_eq hs, Mapping.get_insert_of_ne (by decide), get_function_queued hs, hq]
    rfl
  have horiginal : s.elaborated.get "original" = .map s.snapshot := by
    rw [elaborated_eq hs, Mapping.get_insert_self]
  have hextras : (s.elaborated.filter fun e => isExtra e.1) = Value.copyEntries s.extras := by
    rw [elaborated_eq hs, Mapping.filter_insert (by decide), filter_queued hs]
  refine ⟨⟨?_, ?_, ?_, ?_⟩, hfunction⟩
  · rw [horiginal]
    exact isTruthy_map (snapshot_ne_nil hs)
  · rw [hfunction]
    rfl
  · rw [horiginal]
    exact congrArg Value.map (Value.copyEntries_copyEntries _)
  · rw [hextras, Value.copyEntries_copyEntries]

end Size

namespace Engine

variable {e : Engine} {p : Policy} {s : SizeSpec}

/-- The pixels of a size in a batch with a function. -/
def toPixelsWith (e : Engine) (p : Policy) (size : Value) (real : RealDimension) : Logged PixelSize := do
  e.toPixels (← e.withFunction size (.str p.name)) real

/-- A size that is no specification and not empty. -/
theorem toPixelsWith_raw {size : Value} {m : Mapping} (hraw : ∀ w h fs o x, size ≠ .spec w h fs o x)
    (hm : (e.elaborate size).result = .ok m) (hpresent : (m.get "original").isTruthy = true)
    (hrefs : Size.Understood e.registry (Size.references e.config (m.get "function")))
    (real : RealDimension) :
    e.toPixelsWith p size real =
      (if Size.isBlank (m.get "function") then e else e.withDefault p).toPixels size real := by
  have hpure : e.elaborate size = pure m := Size.canonical_eq_pure hm
  have hsettled := Size.settled_canonical hraw hm hpresent
  have hnormal : ∀ d : Engine, d.elaborate size = pure m → d.normalize (.map m) = d.normalize size := by
    intro d hd
    unfold normalize
    rw [Size.normalize_settled hsettled, Size.normalize_of_not_spec hraw]
    show _ = (d.elaborate size >>= fun m => Size.normalizeCanonical d.config d.registry m)
    rw [hd, Logged.pure_bind]
  unfold toPixelsWith
  rw [withFunction_elaborated hpure hsettled hrefs]
  refine toPixels_of_normalize_eq (hnormal _ ?_) real
  split
  · exact hpure
  · exact hpure

/-- A specification that survives and whose references are understood. -/
theorem toPixelsWith_spec {refs : List Value} (hs : s.Survives) (hd : Mapping.Distinct s.extras)
    (hrefs : Size.Understood e.registry refs) (hne : refs ≠ []) (real : RealDimension) :
    e.toPixelsWith p ((s.withQueue []).andThen refs) real =
      (e.withDefault p).toPixels ((s.withQueue []).andThen refs) real := by
  have helaborate : e.elaborate ((s.withQueue []).andThen refs) = pure (Size.referring s refs) :=
    Size.canonical_andThen hs hne
  have hunderstood : Size.Understood e.registry
      (Size.references e.config ((Size.referring s refs).get "function")) := by
    rw [Size.get_function_referring]
    exact hrefs
  unfold toPixelsWith
  rw [withFunction_elaborated helaborate (Size.settled_referring hs hd hrefs) hunderstood,
    Size.get_function_referring]
  show (e.withDefault p).toPixels (.map (Size.referring s refs)) real = _
  exact toPixels_of_normalize_eq (e := e.withDefault p) (Size.normalize_referring hs hd hrefs) real

/-- A specification with nothing to be done gets the function of the batch all the same. -/
theorem toPixelsWith_done (hs : s.Proper) (hq : s.queue = []) (real : RealDimension) :
    e.toPixelsWith p s.toValue real =
      (e.withDefault p).toPixels (s.comeBack (e.withDefault p).config).toValue real := by
  obtain ⟨hsettled, hfunction⟩ := Size.settled_elaborated hs hq
  have helaborate : e.elaborate s.toValue = pure s.elaborated := Size.canonical_toValue e.config s
  have hunderstood : Size.Understood e.registry
      (Size.references e.config (s.elaborated.get "function")) := by
    rw [hfunction]
    exact Size.understood_name e.registry e.config.defaultPolicy
  have hback : (e.withDefault p).normalize (.map s.elaborated) =
      (e.withDefault p).normalize (s.comeBack (e.withDefault p).config).toValue := by
    unfold normalize
    rw [Size.normalize_elaborated _ _ hs, Size.normalize_toValue]
    rfl
  unfold toPixelsWith
  rw [withFunction_elaborated helaborate hsettled hunderstood, hfunction]
  exact toPixels_of_normalize_eq hback real

/-- On an engine a specification with an empty queue is finished. -/
theorem toPixels_done (hq : s.queue = []) (real : RealDimension) :
    e.toPixels s.toValue real = pixelsOf s real := by
  have hnormal : e.normalize s.toValue = pure s := Size.normalize_toValue e.config e.registry s none
  unfold toPixels calculate calculateWith
  rw [hnormal, Logged.pure_bind, drain_nil hq, Logged.pure_bind]

/-- The function of a batch against the same function as the default of the engine. -/
theorem withFunction_toPixels (e : Engine) (p : Policy) (real : RealDimension) :
    (∀ size, (∀ w h fs o x, size ≠ .spec w h fs o x) →
      (∀ f, (e.elaborate size).result = .error f →
        e.toPixelsWith p size real = (e.withDefault p).toPixels size real) ∧
      ∀ m, (e.elaborate size).result = .ok m → (m.get "original").isTruthy = true →
        Size.Understood e.registry (Size.references e.config (m.get "function")) →
        e.toPixelsWith p size real =
          (if Size.isBlank (m.get "function") then e else e.withDefault p).toPixels size real) ∧
    (∀ (s : SizeSpec) (refs : List Value), s.Survives → Mapping.Distinct s.extras →
      Size.Understood e.registry refs → refs ≠ [] →
      e.toPixelsWith p ((s.withQueue []).andThen refs) real =
        (e.withDefault p).toPixels ((s.withQueue []).andThen refs) real) ∧
    ∀ s : SizeSpec, s.Proper → s.queue = [] →
      e.toPixelsWith p s.toValue real =
        (e.withDefault p).toPixels (s.comeBack (e.withDefault p).config).toValue real ∧
      (e.withDefault p).toPixels s.toValue real = pixelsOf s real := by
  refine ⟨?_, ?_, ?_⟩
  · intro size hraw
    exact ⟨fun f hf => withFunction_of_error hraw hf real,
      fun m hm hpresent hrefs => toPixelsWith_raw hraw hm hpresent hrefs real⟩
  · intro s refs hs hd hrefs hne
    exact toPixelsWith_spec hs hd hrefs hne real
  · intro s hs hq
    exact ⟨toPixelsWith_done hs hq real, toPixels_done hq real⟩

/-! ## Two sizes that the two ways treat differently -/

/-- Ten by ten pixels, with a blank entry for the function. -/
def blankTen : Mapping :=
  [(.str "width", .int 10), (.str "height", .int 10), (.str "function", .str "")]

theorem survives_tenWideSpec : tenWideSpec.Survives := by
  have hs : (Size.normalize .standard {} (.map tenWide)).result = .ok tenWideSpec :=
    congrArg Logged.result normalize_tenWide
  refine (Size.survives_plain_iff rfl hs).2 ⟨nofun, nofun, nofun, nofun⟩

theorem understood_tenWideSpec : Size.Understood {} (tenWideSpec.queue.map .step) := by
  intro ref href
  obtain ⟨step, hstep, rfl⟩ := List.mem_map.1 href
  refine ⟨step, rfl, ?_⟩
  rcases List.mem_cons.1 hstep with rfl | hstep
  · rfl
  · cases List.mem_singleton.1 hstep
    rfl

/-- With the blank entry the engine's own default is applied, and without steps the function of the
batch. -/
theorem withFunction_toPixels_blankTen :
    Engine.toPixelsWith {} .cover (.map blankTen) twentyByForty =
      Engine.toPixels {} (.map blankTen) twentyByForty ∧
    (Engine.toPixels {} (.map blankTen) twentyByForty).result = .ok ⟨5, 10⟩ ∧
    ((Engine.withDefault {} .cover).toPixels (.map blankTen) twentyByForty).result = .ok ⟨10, 20⟩ ∧
    Engine.toPixelsWith {} .cover tenWideSpec.toValue twentyByForty =
      (Engine.withDefault {} .cover).toPixels tenWideSpec.toValue twentyByForty ∧
    Engine.toPixelsWith {} .cover unscaledSpec.toValue twoToOne =
      (Engine.withDefault {} .cover).toPixels
        (unscaledSpec.comeBack (Engine.withDefault {} .cover).config).toValue twoToOne ∧
    (Engine.toPixelsWith {} .cover unscaledSpec.toValue twoToOne).result = .ok ⟨100, 50⟩ ∧
    ((Engine.withDefault {} .cover).toPixels unscaledSpec.toValue twoToOne).result = .ok ⟨30, 50⟩ := by
  have hraw := ((withFunction_toPixels {} .cover twentyByForty).1 (.map blankTen) nofun).2 _ rfl rfl
    (Size.understood_name {} .contain)
  have hspec := (withFunction_toPixels {} .cover twentyByForty).2.1 tenWideSpec _ survives_tenWideSpec
    List.Pairwise.nil understood_tenWideSpec nofun
  have hproper : unscaledSpec.Proper := ⟨nofun, List.Pairwise.nil⟩
  have hdone := ((withFunction_toPixels {} .cover twoToOne).2.2 unscaledSpec hproper rfl).1
  refine ⟨hraw, ?_, ?_, hspec, hdone, ?_, ?_⟩
  · exact Scaling.ok_of_toOption (by decide +kernel)
  · exact Scaling.ok_of_toOption (by decide +kernel)
  · exact Scaling.ok_of_toOption (by decide +kernel)
  · exact Scaling.ok_of_toOption (by decide +kernel)

end Engine

end ImageSizing
