import ImageSizing.Proofs.Batch.Accounts
import ImageSizing.Proofs.Batch.Probing
import ImageSizing.Proofs.Size.Normal

/-!
# Sources that stay as they are

A batch that may not overwrite leaves every entry in its place while it works, so each of its
pairs is attempted in a tree where the source is what it was before the batch
(`run_attempted`).  What becomes of a pair can then be told beforehand from the source and the
size alone, up to what may be in the way of an output (`Hindrance`):

    the size does not resolve  →  the pair fails with that failure      (`run_unresolved`)
    it resolves to a target    →  an output of that target, or a hindrance  (`run_resolved`)

A hindrance is never a sizing error.
-/

namespace ImageSizing

open Logged

namespace Pair

variable {library : PictureLibrary} {t : FileTree} {e : Engine} {o : BatchOptions}
  {folder source : String} {size : Value} {real : RealDimension} {target : PixelSize} {f : Failure}

/-- What can be in the way of an output once its size has resolved: the target has no pixels,
there is no such format, the name template does not fit, the quality is no number, or the
picture cannot be brought to the target or cannot be saved. -/
inductive Hindrance (library : PictureLibrary) (e : Engine) (o : BatchOptions) (source : String)
    (size : Value) (target : PixelSize) : Failure → Prop
  | emptyTarget (empty : target.width = 0 ∨ target.height = 0) :
      Hindrance library e o source size target
        (.fault (.output (.emptyTarget target.width target.height)))
  | format {fault : Fault} (unknown : PictureFormat.forChoice source o.formatChoice = .error fault) :
      Hindrance library e o source size target (.fault fault)
  | name {fault : Fault}
      (unnamed : (e.destinationName o.nameTemplate source size).result = .error (.fault fault)) :
      Hindrance library e o source size target (.fault fault)
  | quality {fault : Fault} {format : PictureFormat}
      (unread : Drawing.qualityFor format o.quality = .error fault) :
      Hindrance library e o source size target (.fault fault)
  | rendering {p : Picture} {format : PictureFormat} {fault : ForeignFault}
      (unready : (p.rendered library target format).result = .error fault) :
      Hindrance library e o source size target (.fault (.file (.library fault)))
  | save {u : FileTree} {path : String} {p : Picture} {format : PictureFormat}
      {quality : Option Int} {fault : FileFault}
      (unsaved : (u.savePicture library path p format quality).2 = some fault) :
      Hindrance library e o source size target (.fault (.file fault))

theorem Hindrance.isSizing (h : Hindrance library e o source size target f) :
    f.isSizing = false := by
  cases h <;> rfl

/-! ## Planning -/

theorem checkTarget_eq_error (h : (checkTarget target).result = .error f) :
    Hindrance library e o source size target f := by
  unfold checkTarget at h
  split at h
  · rename_i hempty
    cases h
    exact .emptyTarget hempty
  · cases h

/-- A size that is resolved, with or without a function put in, has a canonical form. -/
theorem elaborate_of_targetOf (hraw : ∀ w h fs o x, size ≠ .spec w h fs o x)
    (h : (targetOf e o size real).result = .ok target) : ∃ m, (e.elaborate size).result = .ok m := by
  obtain ⟨given, hgiven, htarget⟩ := bind_result_eq_ok_iff.1 h
  unfold Engine.withFunction at hgiven
  split at hgiven
  · obtain ⟨m, hm, -⟩ := bind_result_eq_ok_iff.1 hgiven
    exact ⟨m, hm⟩
  · cases hgiven
    obtain ⟨done, hdone, -⟩ := bind_result_eq_ok_iff.1 htarget
    obtain ⟨s, hs, -⟩ := bind_result_eq_ok_iff.1 hdone
    unfold Engine.normalize at hs
    rw [Size.normalize_of_not_spec hraw] at hs
    obtain ⟨m, hm, -⟩ := bind_result_eq_ok_iff.1 hs
    exact ⟨m, hm⟩

/-- Naming an output of a size that has a canonical form fails with a fault only. -/
theorem destinationName_eq_error {template : String} {m : Mapping}
    (hm : (e.elaborate size).result = .ok m)
    (h : (e.destinationName template source size).result = .error f) : ∃ fault, f = .fault fault := by
  unfold Engine.destinationName Engine.looseDestinationName at h
  rcases bind_result_eq_error_iff.1 h with h | ⟨canonical, -, h⟩
  · rw [hm] at h
    cases h
  rcases bind_result_eq_error_iff.1 h with h | ⟨path, -, h⟩
  · obtain ⟨fault, -, rfl⟩ := ofFaulty_result_eq_error_iff.1 h
    exact ⟨fault, rfl⟩
  rcases bind_result_eq_error_iff.1 h with h | ⟨chosen, -, h⟩ <;>
  · obtain ⟨fault, -, rfl⟩ := ofFaulty_result_eq_error_iff.1 h
    exact ⟨fault, rfl⟩

/-- A plan begins with its target. -/
theorem planFor_eq (t : FileTree) (e : Engine) (o : BatchOptions) (folder source : String)
    (size : Value) (real : RealDimension) :
    planFor t e o folder source size real =
      targetOf e o size real >>= fun target => do
        checkTarget target
        let (ext, format) ← ofFaulty (PictureFormat.forChoice source o.formatChoice)
        let name ← e.destinationName o.nameTemplate source size
        return ⟨real, target, format, destination t o.overwrite folder name ext⟩ := by
  unfold planFor targetOf
  rw [bind_assoc]

theorem planFor_unresolved (h : (targetOf e o size real).result = .error f) :
    (planFor t e o folder source size real).result = .error f := by
  rw [planFor_eq, bind_error _ h]

/-- A plan whose size resolves fails by a hindrance. -/
theorem planFor_eq_error (hraw : ∀ w h fs o x, size ≠ .spec w h fs o x)
    (htarget : (targetOf e o size real).result = .ok target)
    (h : (planFor t e o folder source size real).result = .error f) :
    Hindrance library e o source size target f := by
  rw [planFor_eq, bind_ok _ htarget] at h
  rcases bind_result_eq_error_iff.1 h with h | ⟨-, -, h⟩
  · exact checkTarget_eq_error h
  rcases bind_result_eq_error_iff.1 h with h | ⟨⟨ext, format⟩, -, h⟩
  · obtain ⟨fault, hformat, rfl⟩ := ofFaulty_result_eq_error_iff.1 h
    exact .format hformat
  rcases bind_result_eq_error_iff.1 h with h | ⟨name, -, h⟩
  · obtain ⟨m, hm⟩ := elaborate_of_targetOf hraw htarget
    obtain ⟨fault, rfl⟩ := destinationName_eq_error hm h
    exact .name h
  · cases h

/-! ## Drawing -/

/-- Drawing a source that can be opened fails by a hindrance. -/
theorem carryOut_eq_error {p : Plan} (hprobe : t.probe source = .ok real)
    (h : (carryOut library t source o.quality p).result = .error f) :
    Hindrance library e o source size p.target f := by
  obtain ⟨l, picture, hlook, -⟩ := FileTree.probe_eq_ok.1 hprobe
  unfold carryOut at h
  rw [Drawing.draw_opened (FileTree.openPicture_eq_ok.2 ⟨l, hlook⟩)] at h
  cases hready : (picture.rendered library p.target p.format).result with
  | error fault =>
    rw [Drawing.write_unready hready] at h
    cases h
    exact .rendering hready
  | ok q =>
    cases hquality : Drawing.qualityFor p.format o.quality with
    | error fault =>
      rw [Drawing.write_unencoded hready hquality] at h
      cases h
      exact .quality hquality
    | ok n =>
      rw [Drawing.write_ready hready hquality] at h
      cases hsave : (t.savePicture library p.destination q p.format n).2 with
      | none =>
        rw [hsave] at h
        cases h
      | some fault =>
        rw [hsave] at h
        cases h
        exact .save hsave

/-! ## One pair -/

theorem attempt_unresolved (hprobe : t.probe source = .ok real)
    (h : (targetOf e o size real).result = .error f) :
    (attempt library t e o folder source size none).result = .error f := by
  have hplan : (plan t e o folder source size none).result = .error f := by
    rw [plan_probed hprobe, planFor_unresolved h]
  rw [attempt_unplanned hplan]

/-- An attempt at a size that resolves gives an output of its target, or fails by a
hindrance. -/
theorem attempt_resolved (hraw : ∀ w h fs o x, size ≠ .spec w h fs o x)
    (hprobe : t.probe source = .ok real) (h : (targetOf e o size real).result = .ok target) :
    (∃ s, (attempt library t e o folder source size none).result = .ok s ∧
      s.real = real ∧ s.target = target) ∨
    ∃ f, (attempt library t e o folder source size none).result = .error f ∧
      Hindrance library e o source size target f := by
  cases hplan : (plan t e o folder source size none).result with
  | error f =>
    rw [attempt_unplanned hplan]
    rw [plan_probed hprobe] at hplan
    exact .inr ⟨f, rfl, planFor_eq_error hraw h hplan⟩
  | ok p =>
    rw [attempt_planned hplan]
    rw [plan_probed hprobe] at hplan
    obtain ⟨hreal, htarget, -⟩ := planFor_eq_ok hplan
    rw [h] at htarget
    obtain rfl := Except.ok.inj htarget
    cases hdraw : (carryOut library t source o.quality p).result with
    | error f => exact .inr ⟨f, rfl, carryOut_eq_error hprobe hdraw⟩
    | ok _ => exact .inl ⟨_, rfl, hreal, rfl⟩

end Pair

/-! ## Batches -/

namespace Batch

variable {b : Batch} {t : FileTree} {sources : List String} {r : Report} {real : RealDimension}

/-- What was there stays, also where a pair reads its source. -/
theorem keeps_probing (hb : b.options.overwrite = false) (t : FileTree) (source : String)
    (size : Value) : t.Keeps (b.probing t source size).tree := by
  have hread : b.probing t source size = b.attempt t source none size := attempt_probing rfl size
  rw [hread]
  exact keeps_attempt hb t source none size

theorem probePairs_attempted (hb : b.options.overwrite = false) {t u : FileTree} (hk : t.Keeps u)
    (pairs : List (String × Value)) :
    ∀ r ∈ (b.probePairs u pairs).reports, ∃ v, t.Keeps v ∧
      r = report r.source r.size (b.probing v r.source r.size) := by
  induction pairs generalizing u with
  | nil => exact List.forall_mem_nil _
  | cons pair rest ih =>
    obtain ⟨source, size⟩ := pair
    have hfirst : ∃ v, t.Keeps v ∧
        report source size (b.probing u source size) = report source size (b.probing v source size) :=
      ⟨u, hk, rfl⟩
    have hlater := hk.trans (keeps_probing hb u source size)
    rw [probePairs_cons]
    split
    · exact List.forall_mem_cons.2 ⟨hfirst, ih hlater⟩
    · exact List.forall_mem_singleton.2 hfirst

/-- Every pair of a batch that may not overwrite reads its source in a tree that has kept what
was there before the batch. -/
theorem run_attempted (hb : b.options.overwrite = false) (t : FileTree) (sources : List String) :
    ∀ r ∈ (b.run t sources).reports, ∃ u, t.Keeps u ∧
      r = report r.source r.size (b.probing u r.source r.size) := by
  rcases hmade : t.makeFolders b.folder with ⟨made, _ | f⟩
  · have hkeeps : t.Keeps made := by
      obtain ⟨new, hgrown, -⟩ := FileTree.grown_makeFolders t b.folder
      rw [hmade] at hgrown
      exact hgrown.keeps
    rw [run_made hmade, runSources_eq_probePairs (rereads_of_kept hb) (.refl _)]
    · exact probePairs_attempted hb hkeeps _
    · intro i r hr hresizes
      rw [(runSources_worked made sources).apart hb r (List.mem_of_getElem? hr)] at hresizes
      cases hresizes
  · rw [run_unmade hmade]
    exact List.forall_mem_nil _

/-- A pair whose size does not resolve for its source fails with that failure. -/
theorem run_unresolved (hb : b.options.overwrite = false) (hr : r ∈ (b.run t sources).reports)
    (hprobe : t.probe r.source = .ok real) {f : Failure}
    (h : (Pair.targetOf b.engine b.options r.size real).result = .error f) : r.outcome = .error f := by
  obtain ⟨u, hk, hreport⟩ := run_attempted hb t sources r hr
  rw [hreport]
  exact outcome_report_of_error _ _ (Pair.attempt_unresolved (FileTree.probe_keeps hk hprobe) h)

/-- A pair whose size resolves for its source comes to an output of that target, or to a
hindrance. -/
theorem run_resolved (hb : b.options.overwrite = false) (hr : r ∈ (b.run t sources).reports)
    (hraw : ∀ w h fs o x, r.size ≠ .spec w h fs o x) (hprobe : t.probe r.source = .ok real)
    {target : PixelSize} (h : (Pair.targetOf b.engine b.options r.size real).result = .ok target) :
    (∃ s, r.outcome = .ok s ∧ s.real = real ∧ s.target = target) ∨
    ∃ f, r.outcome = .error f ∧ Pair.Hindrance b.library b.engine b.options r.source r.size target f := by
  obtain ⟨u, hk, hreport⟩ := run_attempted hb t sources r hr
  rw [hreport]
  rcases Pair.attempt_resolved hraw (FileTree.probe_keeps hk hprobe) h with
    ⟨s, hok, hsaved⟩ | ⟨f, herror, hindrance⟩
  · exact .inl ⟨s, outcome_report_of_ok _ _ hok, hsaved⟩
  · exact .inr ⟨f, outcome_report_of_error _ _ herror, hindrance⟩

/-- A batch of sizes that have a text gets to its last pair. -/
theorem run_complete (hfolder : (t.makeFolders b.folder).2 = none)
    (hsizes : ∀ size ∈ b.options.sizes, size.printable = true) (sources : List String) :
    (b.run t sources).failure = none ∧ (b.run t sources).reports.map Report.pair = b.pairs sources := by
  have htraverses := run_traverses hfolder sources
  have hended : (b.run t sources).failure = none := by
    rw [htraverses.failure_eq_none_iff]
    intro r hr
    obtain ⟨i, hi⟩ := List.mem_iff_getElem?.1 hr
    have hsize := (getElem?_pairs (htraverses.getElem?_pair hi)).2
    have hprint := hsizes r.size (List.mem_of_getElem? hsize)
    unfold Report.isTellable
    rw [hprint, Bool.or_true]
  exact ⟨hended, (htraverses.of_ended hended).1⟩

end Batch

end ImageSizing
