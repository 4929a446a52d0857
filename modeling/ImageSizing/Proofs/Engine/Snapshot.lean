import ImageSizing.Proofs.Engine.Order
import ImageSizing.Proofs.Value.Mapping

/-!
# The snapshot of a calculation

A calculation takes one snapshot, that of the normal form it starts from.  Whatever a step
answers is normalized again with this snapshot pinned on it (`normalize_pinned`), so every
size that a step is given has it, and so has the size that is returned.  The extras are
replaced along with the size; they stay as they are where every custom step answers nothing
or the size it was given with other axes and further references (`Turn.Derives`).
-/

namespace ImageSizing

/-- A pinned snapshot is the snapshot of the normal form, whatever the size brings with it. -/
theorem Size.normalize_pinned {cfg : EngineConfig} {r : Registry} {raw : Value} {original : Mapping}
    {s : SizeSpec} (h : (normalize cfg r raw (some original)).result = .ok s) :
    s.original = original := by
  have hraw : (∀ w h' fs o x, raw ≠ .spec w h' fs o x) → s.original = original := by
    intro hne
    rw [normalize_of_not_spec hne] at h
    obtain ⟨m, _, h⟩ := Logged.bind_result_eq_ok_iff.1 h
    obtain ⟨_, _, _, ho, _⟩ := normalizeCanonical_eq_ok h
    unfold pin at ho
    rw [Mapping.get_insert_self, Mapping.ofValue_map] at ho
    exact (Except.ok.inj ho).symm
  cases raw with
  | spec w h' fs o x => exact (normalizeSpec_eq_ok h).2.2.2.1
  | _ => exact hraw nofun

namespace Calculation

/-- A turn leads to a size with the snapshot of the calculation, whatever its step answered. -/
theorem turn_original {c : Calculation} {step : Step} {given next : SizeSpec} {u : Turn}
    {l : List LogEntry} (h : c.turn step given = ⟨l, .ok (u, next)⟩) : next.original = c.original :=
  Size.normalize_pinned (turn_eq_ok h).2.2

/-- All sizes of a run that starts with the snapshot of the calculation have it. -/
theorem history_original (c : Calculation) (n : Nat) {s : SizeSpec} (hs : s.original = c.original) :
    ∀ t ∈ (c.history n s).sizes, t.original = c.original :=
  history_invariant (P := fun t => t.original = c.original) (Q := fun _ => True)
    (fun _ _ h => h) (fun done _ _ => turn_original done) (fun _ _ => trivial) hs

/-- All sizes of a run whose turns derive have the same extras. -/
theorem history_extras (c : Calculation) (n : Nat) {s : SizeSpec}
    (hd : ∀ u ∈ (c.history n s).turns, u.Derives) :
    ∀ t ∈ (c.history n s).sizes, t.extras = s.extras :=
  history_invariant (P := fun t => t.extras = s.extras) (Q := Turn.Derives) (fun _ _ h => h)
    (fun done hu hgiven => (turn_derived done hu).2.2.trans hgiven) hd rfl

end Calculation

namespace Engine

/-- What a calculation returns is the last size of its run. -/
theorem mem_sizes_of_calculate {e : Engine} {size : Value} {real : RealDimension} {s t : SizeSpec}
    (hs : (e.normalize size).result = .ok s) (ht : (e.calculate size real).result = .ok t) :
    t ∈ (e.historyOf real s).sizes := by
  obtain ⟨us, l, _, _, he⟩ := turns_of_calculate hs ht
  rw [he]
  exact List.mem_append_right _ (List.mem_singleton.2 rfl)

/-- A calculation is the outcome of its history, and every size in that history, the one that is
returned included, has the snapshot of the normal form that the calculation starts from.  Where
the custom steps derive, it has the extras of that normal form, too. -/
theorem calculate_snapshot {e : Engine} {size : Value} {real : RealDimension} {s : SizeSpec}
    (hs : (e.normalize size).result = .ok s) :
    let c := e.calculation real s
    let h := e.historyOf real s
    e.calculate size real =
      ⟨(e.normalize size).entries ++ (h.outcome c).entries, (h.outcome c).result⟩ ∧
    (∀ t ∈ h.sizes, t.original = s.original) ∧
    (∀ t, (e.calculate size real).result = .ok t → t.original = s.original) ∧
    ((∀ u ∈ h.turns, u.step.runsPolicy = false → u.Derives) →
      (∀ t ∈ h.sizes, t.extras = s.extras) ∧
      ∀ t, (e.calculate size real).result = .ok t → t.extras = s.extras) := by
  intro c h
  have horiginal : ∀ t ∈ h.sizes, t.original = s.original := c.history_original _ rfl
  refine ⟨calculate_of_normalize real hs, horiginal, ?_, ?_⟩
  · intro t ht
    exact horiginal t (mem_sizes_of_calculate hs ht)
  · intro hd
    have hextras : ∀ t ∈ h.sizes, t.extras = s.extras :=
      c.history_extras _ (Calculation.history_derives hd)
    exact ⟨hextras, fun t ht => hextras t (mem_sizes_of_calculate hs ht)⟩

/-! ## A step that answers with another size -/

/-- A custom function that answers with a size of its own. -/
def replacer : Callable := ⟨some "replacer", 0⟩

/-- A custom function that asks for a check. -/
def adder : Callable := ⟨some "adder", 1⟩

/-- What the first one answers: another width, and a snapshot that is not taken over. -/
def replacement : Mapping :=
  [(.str "function", .str "check"), (.str "original", .map [(.str "width", .int 99)]),
    (.str "width", .dim .pixel (.int 7))]

def replacingEngine : Engine :=
  { functions := Recipe.functions #[.answer (.map replacement), .andThen [.str "check"]] }

/-- A size with a note that has a custom function run. -/
def notedSize (c : Callable) : Mapping :=
  [(.str "function", .callable c), (.str "note", .str "kept"), (.str "width", .dim .pixel (.int 10))]

/-- The normal form of that size, with some steps to run. -/
def notedSpec (c : Callable) (queue : List Step) : SizeSpec :=
  ⟨.pixel (.int 10), .unspecified, queue, notedSize c, [(.str "note", .str "kept")]⟩

def fiveByFive : RealDimension := ⟨.int 5, .int 5, by decide, by decide⟩

/-- The replaced size keeps the snapshot and loses the note; the derived one keeps both. -/
theorem calculate_snapshot_replaced :
    (replacingEngine.calculate (.map (notedSize replacer)) fiveByFive).result =
      .ok ⟨.pixel (.int 7), .unspecified, [], notedSize replacer, []⟩ ∧
    (∀ t ∈ (replacingEngine.historyOf fiveByFive (notedSpec replacer [.ofCallable replacer])).sizes,
      t.original = notedSize replacer) ∧
    (replacingEngine.calculate (.map (notedSize adder)) fiveByFive).result =
      .ok (notedSpec adder []) ∧
    ∀ t ∈ (replacingEngine.historyOf fiveByFive (notedSpec adder [.ofCallable adder])).sizes,
      t.extras = [(.str "note", .str "kept")] := by
  have hreplaced : (replacingEngine.normalize (.map (notedSize replacer))).result =
      .ok (notedSpec replacer [.ofCallable replacer]) := rfl
  have hadded : (replacingEngine.normalize (.map (notedSize adder))).result =
      .ok (notedSpec adder [.ofCallable adder]) := rfl
  have hturns : (replacingEngine.historyOf fiveByFive (notedSpec adder [.ofCallable adder])).turns =
      [⟨.ofCallable adder, notedSpec adder [], (notedSpec adder []).andThen [.str "check"]⟩,
        ⟨.ofPolicy .check, notedSpec adder [], (notedSpec adder []).toValue⟩] := rfl
  have hderives : ∀ u ∈ (replacingEngine.historyOf fiveByFive
      (notedSpec adder [.ofCallable adder])).turns, u.step.runsPolicy = false → u.Derives := by
    intro u hu hcustom
    rw [hturns] at hu
    simp only [List.mem_cons, List.not_mem_nil, or_false] at hu
    rcases hu with rfl | rfl
    · exact Turn.derives_of_andThen _ _ _ rfl
    · cases hcustom
  exact ⟨rfl, (calculate_snapshot hreplaced).2.1, rfl, ((calculate_snapshot hadded).2.2.2 hderives).1⟩

end Engine

end ImageSizing
