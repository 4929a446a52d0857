import ImageSizing.Proofs.Batch.Order
import ImageSizing.Proofs.Batch.Pair

/-!
# What the pairs of a batch do to the tree

The reports of a batch tell how its tree came about (`Worked`): each is that of an attempt, and
the tree is handed on from one attempt to the next.  One that succeeded is an attempt with the
real dimension that it reports; one that failed left the tree alone if the failed saves of the
batch do (`attempt_failed`).  Every batch works like that once its folder is made (`run_worked`),
also one that stops early, so that what holds of its tree is proved by one induction over the
reports.
-/

namespace ImageSizing

/-- The output of a pair, if it was written. -/
def Report.saved? (r : Report) : Option Saved := r.outcome.toOption

/-- The outputs that a run wrote, in order. -/
def BatchRun.saved (run : BatchRun) : List Saved := run.reports.filterMap Report.saved?

namespace Report

theorem saved?_of_ok {r : Report} {s : Saved} (h : r.outcome = .ok s) : r.saved? = some s := by
  unfold saved?
  rw [h]
  rfl

theorem saved?_of_error {r : Report} {f : Failure} (h : r.outcome = .error f) :
    r.saved? = none := by
  unfold saved?
  rw [h]
  rfl

theorem isTellable_of_ok {r : Report} {s : Saved} (h : r.outcome = .ok s) : r.isTellable = true := by
  unfold isTellable isOk
  rw [h]
  rfl

theorem isTellable_of_error {r : Report} {f : Failure} (h : r.outcome = .error f) :
    r.isTellable = r.size.printable := by
  unfold isTellable isOk
  rw [h]
  rfl

theorem isTellable_eq_false_iff {r : Report} :
    r.isTellable = false ↔ r.isOk = false ∧ r.size.printable = false :=
  Bool.or_eq_false_iff

theorem saved?_eq_some_iff {r : Report} {s : Saved} : r.saved? = some s ↔ r.outcome = .ok s := by
  unfold saved?
  cases r.outcome <;> simp [Except.toOption]

end Report

theorem BatchRun.mem_saved {run : BatchRun} {s : Saved} :
    s ∈ run.saved ↔ ∃ r ∈ run.reports, r.outcome = .ok s := by
  unfold saved
  simp only [List.mem_filterMap, Report.saved?_eq_some_iff]

namespace Batch

/-- One tree becomes another by the pairs of some reports, one after the other. -/
inductive Worked (b : Batch) : FileTree → List Report → FileTree → Prop
  | done (t : FileTree) : Worked b t [] t
  | failed {t u : FileTree} {r : Report} {rest : List Report} {known : Option RealDimension}
      {f : Failure} (outcome : r.outcome = .error f)
      (now : (b.attempt t r.source known r.size).result = .error f)
      (later : Worked b (b.attempt t r.source known r.size).tree rest u) : Worked b t (r :: rest) u
  | saved {t u : FileTree} {r : Report} {rest : List Report} {s : Saved}
      (outcome : r.outcome = .ok s)
      (now : (b.attempt t r.source (some s.real) r.size).result = .ok s)
      (later : Worked b (b.attempt t r.source (some s.real) r.size).tree rest u) :
      Worked b t (r :: rest) u

variable {b : Batch}

theorem Worked.append {t u v : FileTree} {rs rs' : List Report} (h : Worked b t rs u)
    (h' : Worked b u rs' v) : Worked b t (rs ++ rs') v := by
  induction h with
  | done t => exact h'
  | failed outcome now later ih => exact .failed outcome now (ih h')
  | saved outcome now later ih => exact .saved outcome now (ih h')

/-! ## One pair -/

section

variable {a : Attempt} {s : Saved} {f : Failure}

theorem outcome_report_of_ok (source : String) (size : Value) (h : a.result = .ok s) :
    (report source size a).outcome = .ok s := h

theorem outcome_report_of_error (source : String) (size : Value) (h : a.result = .error f) :
    (report source size a).outcome = .error f := h

end

section

variable {t : FileTree} {source : String} {known : Option RealDimension}

/-- Only a source that is not known is read, so only that can fail. -/
theorem realOf_eq_error_iff {f : Failure} :
    realOf t source known = .error f ↔ known = none ∧ t.probe source = .error f := by
  cases known with
  | none => exact (and_iff_right rfl).symm
  | some real => exact iff_of_false nofun (fun h => nomatch h.1)

/-- A pair whose source cannot be read fails with that, and does nothing. -/
theorem attempt_unread {f : Failure} (h : realOf t source known = .error f) (size : Value) :
    b.attempt t source known size = ⟨[], [], t, .error f⟩ := by
  unfold attempt
  rw [h]

theorem attempt_read {real : RealDimension} (h : realOf t source known = .ok real) (size : Value) :
    b.attempt t source known size =
      Pair.attempt b.library t b.engine b.options b.folder source size (some real) := by
  unfold attempt
  rw [h]

theorem knownAfter_unread {f : Failure} (h : realOf t source known = .error f) :
    knownAfter t source known = none := by
  unfold knownAfter
  rw [h]
  rfl

theorem knownAfter_read {real : RealDimension} (h : realOf t source known = .ok real) :
    knownAfter t source known = some real := by
  unfold knownAfter
  rw [h]
  rfl

end

/-- A pair whose real dimension is known is attempted with it. -/
theorem attempt_known (b : Batch) (t : FileTree) (source : String) (real : RealDimension)
    (size : Value) :
    b.attempt t source (some real) size =
      Pair.attempt b.library t b.engine b.options b.folder source size (some real) := rfl

/-- A pair that succeeds was attempted with the real dimension that it reports. -/
theorem attempt_eq_ok {t : FileTree} {source : String} {known : Option RealDimension}
    {size : Value} {s : Saved} (h : (b.attempt t source known size).result = .ok s) :
    realOf t source known = .ok s.real ∧
      b.attempt t source known size = b.attempt t source (some s.real) size := by
  cases hreal : realOf t source known with
  | error f =>
    rw [attempt_unread hreal] at h
    cases h
  | ok real =>
    rw [attempt_read hreal] at h ⊢
    obtain ⟨p, hplan, hs, -⟩ := Pair.attempt_eq_ok h
    obtain rfl : s.real = real := by
      rw [hs]
      exact (Pair.planFor_eq_ok hplan).1
    exact ⟨rfl, rfl⟩

/-- A pair that fails leaves the tree as it was, if the failed saves of its batch do. -/
theorem attempt_failed (hclean : b.FailsClean) {t : FileTree} {source : String}
    {known : Option RealDimension} {size : Value} {f : Failure}
    (h : (b.attempt t source known size).result = .error f) :
    (b.attempt t source known size).tree = t := by
  cases hreal : realOf t source known with
  | error f' => rw [attempt_unread hreal]
  | ok real =>
    rw [attempt_read hreal] at h ⊢
    exact Pair.attempt_failed hclean h

/-- Whatever comes of a pair, files stay files and folders stay folders. -/
theorem keepsKinds_attempt (b : Batch) (t : FileTree) (source : String)
    (known : Option RealDimension) (size : Value) :
    t.KeepsKinds (b.attempt t source known size).tree := by
  cases hreal : realOf t source known with
  | error f =>
    rw [attempt_unread hreal]
    exact .refl t
  | ok real =>
    rw [attempt_read hreal]
    exact Pair.keepsKinds_attempt b.library t b.engine b.options b.folder source size (some real)

theorem attempt_worked (t : FileTree) (source : String) (known : Option RealDimension)
    (size : Value) :
    Worked b t [report source size (b.attempt t source known size)]
      (b.attempt t source known size).tree := by
  cases hresult : (b.attempt t source known size).result with
  | error f => exact .failed hresult hresult (.done _)
  | ok s =>
    have hsame := (attempt_eq_ok hresult).2
    have hknown := hresult
    rw [hsame] at hknown
    nth_rewrite 2 [hsame]
    exact .saved hresult hknown (.done _)

/-! ## Whole batches -/

theorem runSizes_worked (source : String) (t : FileTree) (known : Option RealDimension)
    (sizes : List Value) :
    Worked b t (b.runSizes source t known sizes).reports (b.runSizes source t known sizes).tree := by
  induction sizes generalizing t known with
  | nil => exact .done t
  | cons size rest ih =>
    have hfirst := attempt_worked (b := b) t source known size
    rw [runSizes_cons]
    split
    · exact hfirst.append (ih _ _)
    · exact hfirst

theorem runSources_worked (t : FileTree) (sources : List String) :
    Worked b t (b.runSources t sources).reports (b.runSources t sources).tree := by
  induction sources generalizing t with
  | nil => exact .done t
  | cons source rest ih =>
    have hfirst := runSizes_worked (b := b) source t none b.options.sizes
    rw [runSources_cons]
    split
    · exact hfirst
    · exact hfirst.append (ih _)

/-- From its folder on, the tree of a batch comes about by the pairs that it reports. -/
theorem run_worked (b : Batch) (t : FileTree) (sources : List String) :
    Worked b (t.makeFolders b.folder).1 (b.run t sources).reports (b.run t sources).tree := by
  rcases hmade : t.makeFolders b.folder with ⟨made, _ | f⟩
  · rw [run_made hmade]
    exact runSources_worked made sources
  · rw [run_unmade hmade]
    exact .done made

/-! ## Reports -/

theorem runSizes_reported (source : String) (t : FileTree) (known : Option RealDimension)
    (sizes : List Value) : ∀ r ∈ (b.runSizes source t known sizes).reports,
      ∃ u real, r = report r.source r.size (b.attempt u r.source real r.size) := by
  induction sizes generalizing t known with
  | nil => exact List.forall_mem_nil _
  | cons size rest ih =>
    have hfirst : ∃ u real, report source size (b.attempt t source known size) =
        report source size (b.attempt u source real size) := ⟨t, known, rfl⟩
    rw [runSizes_cons]
    split
    · exact List.forall_mem_cons.2 ⟨hfirst, ih _ _⟩
    · exact List.forall_mem_singleton.2 hfirst

theorem runSources_reported (t : FileTree) (sources : List String) :
    ∀ r ∈ (b.runSources t sources).reports,
      ∃ u real, r = report r.source r.size (b.attempt u r.source real r.size) := by
  induction sources generalizing t with
  | nil => exact List.forall_mem_nil _
  | cons source rest ih =>
    have hfirst := runSizes_reported (b := b) source t none b.options.sizes
    rw [runSources_cons]
    split
    · exact hfirst
    · exact List.forall_mem_append.2 ⟨hfirst, ih _⟩

/-- Behind every report stands an attempt at its pair, in some tree. -/
theorem run_reported (b : Batch) (t : FileTree) (sources : List String) :
    ∀ r ∈ (b.run t sources).reports,
      ∃ u real, r = report r.source r.size (b.attempt u r.source real r.size) := by
  rcases hmade : t.makeFolders b.folder with ⟨made, _ | f⟩
  · rw [run_made hmade]
    exact runSources_reported made sources
  · rw [run_unmade hmade]
    exact List.forall_mem_nil _

/-! ## Files -/

/-- A pair that succeeds puts a picture where its path leads, over a file or where nothing was. -/
theorem attempt_put {t : FileTree} {source : String} {size : Value} {known : Option RealDimension}
    {s : Saved} (h : (b.attempt t source known size).result = .ok s) :
    ∃ loc p, t.at? loc ≠ some .folder ∧
      (b.attempt t source known size).tree = t.put loc (.picture p) ∧
      (b.attempt t source known size).tree.look s.destination = .found loc (.picture p) ∧
      (b.library.KeepsSizes → (⟨p.width, p.height⟩ : PixelSize) = s.target) := by
  have hsame := (attempt_eq_ok h).2
  rw [hsame] at h ⊢
  obtain ⟨p, -, -, picture, q, n, -, hready, hsave⟩ := Pair.attempt_eq_ok h
  obtain ⟨loc, stored, hstored, hfolder, -, hput, hlook⟩ := FileTree.savePicture_eq_none hsave
  refine ⟨loc, stored, hfolder, hput, hlook, ?_⟩
  intro hsizes
  exact (hsizes.encode _ _ _ _ hstored).trans (Picture.size_rendered hsizes hready)

/-- Files stay files and folders stay folders. -/
theorem Worked.keepsKinds {t u : FileTree} {rs : List Report} (h : Worked b t rs u) :
    t.KeepsKinds u := by
  induction h with
  | done t => exact .refl t
  | failed outcome now later ih => exact (keepsKinds_attempt ..).trans ih
  | saved outcome now later ih => exact (keepsKinds_attempt ..).trans ih

/-- Behind every output stands the attempt that wrote it. -/
theorem Worked.attempted {t u : FileTree} {rs : List Report} (h : Worked b t rs u) :
    ∀ r ∈ rs, ∀ s, r.outcome = .ok s → ∃ before,
      (b.attempt before r.source (some s.real) r.size).result = .ok s ∧
        (b.attempt before r.source (some s.real) r.size).tree.KeepsKinds u := by
  induction h with
  | done t => exact List.forall_mem_nil _
  | failed outcome now later ih =>
    refine List.forall_mem_cons.2 ⟨?_, ih⟩
    intro s hs
    rw [outcome] at hs
    cases hs
  | saved outcome now later ih =>
    refine List.forall_mem_cons.2 ⟨?_, ih⟩
    intro s hs
    rw [outcome] at hs
    cases hs
    exact ⟨_, now, later.keepsKinds⟩

end Batch

end ImageSizing
