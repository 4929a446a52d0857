import ImageSizing.Proofs.Batch.Steady
import ImageSizing.Proofs.Engine.Raised
import ImageSizing.Proofs.Files.Formats
import ImageSizing.Proofs.Template.Faults

/-!
# Formats that are kept

A batch that keeps formats lacks one for a source exactly if the source is not supported, and no
such source is among the inputs that are gathered for it (`kept_formats`).  Nothing else in a
pair can fail for the lack of a format: not the size, unless a custom function raises that very
fault, not the name, and not the picture (`lacksFormat_cases`).
-/

namespace ImageSizing

open Logged

variable {library : PictureLibrary} {t : FileTree} {e : Engine} {o : BatchOptions}
  {folder source ext : String} {size : Value} {real : RealDimension} {target : PixelSize}
  {fault : OutputFault}

/-! ## Sizes and names -/

namespace Engine

theorem withFunction_avoids (e : Engine) (size function : Value) :
    (e.withFunction size function).Avoids (.output fault) := by
  unfold withFunction
  split
  · refine (Size.canonical_avoids _ size).bind fun canonical => ?_
    split <;> exact avoids_pure _
  · exact avoids_pure _

theorem destinationName_avoids (e : Engine) (template source : String) (size : Value) :
    (e.destinationName template source size).Avoids (.output fault) := by
  have htemplate : ∀ canonical, templateOf canonical (.str template) ≠ .error (.output fault) := by
    intro canonical
    unfold templateOf
    split <;> exact Value.display?_ne_output
  have hpath : pathOf (.str source) ≠ .error (.output fault) := nofun
  exact (Size.canonical_avoids _ size).bind fun canonical => (avoids_ofFaulty hpath).bind fun _ =>
    (avoids_ofFaulty (htemplate canonical)).bind fun chosen =>
      avoids_ofFaulty (Template.fill_ne_output chosen)

end Engine

theorem FileTree.probe_ne_output (t : FileTree) (path : String) :
    t.probe path ≠ .error (.fault (.output fault)) :=
  bind_ne_error (mapError_ne_error fun _ _ => nofun) fun _ =>
    mapError_fault_ne_error RealDimension.make?_ne_output

/-! ## Pictures -/

namespace Quality

theorem ofText_ne_unknownFormat (s : String) : ofText s ≠ .error (.output (.unknownFormat ext)) := by
  unfold ofText
  dsimp only
  split
  · nofun
  · split
    · nofun
    · split <;> nofun

theorem ofValue_ne_unknownFormat (v : Value) :
    ofValue v ≠ .error (.output (.unknownFormat ext)) := by
  unfold ofValue
  split
  · nofun
  · nofun
  · exact mapError_ne_error fun _ _ => nofun
  · exact ofText_ne_unknownFormat _
  · nofun

end Quality

theorem Drawing.outcome_ne_output (fault? : Option FileFault) :
    Drawing.outcome fault? ≠ .error (.fault (.output fault)) := by
  cases fault? <;> nofun

namespace Pair

/-- Drawing what is planned fails for the picture, its place or the quality. -/
theorem carryOut_ne_unknownFormat {quality : Value} (p : Plan) :
    (carryOut library t source quality p).result ≠ .error (.fault (.output (.unknownFormat ext))) := by
  have hquality : Drawing.qualityFor p.format quality ≠ .error (.output (.unknownFormat ext)) := by
    unfold Drawing.qualityFor
    split
    · exact map_ne_error _ (Quality.ofValue_ne_unknownFormat quality)
    · nofun
  unfold carryOut
  cases hopen : t.openPicture source with
  | error f =>
    rw [Drawing.draw_unopened hopen]
    nofun
  | ok picture =>
    rw [Drawing.draw_opened hopen]
    cases hready : (picture.rendered library p.target p.format).result with
    | error f =>
      rw [Drawing.write_unready hready]
      nofun
    | ok q =>
      cases hq : Drawing.qualityFor p.format quality with
      | error f =>
        rw [Drawing.write_unencoded hready hq]
        rintro ⟨⟩
        exact hquality hq
      | ok n =>
        rw [Drawing.write_ready hready hq]
        exact Drawing.outcome_ne_output _

/-! ## Pairs -/

theorem targetOf_avoids (h : ¬e.Raises (.output fault)) (o : BatchOptions) (size : Value)
    (real : RealDimension) : (targetOf e o size real).Avoids (.output fault) :=
  (e.withFunction_avoids size o.function).bind fun given => Engine.toPixels_avoids h given real

theorem planFor_eq_unknownFormat
    (h : (planFor t e o folder source size real).result =
      .error (.fault (.output (.unknownFormat ext)))) :
    (targetOf e o size real).result = .error (.fault (.output (.unknownFormat ext))) ∨
      PictureFormat.forChoice source o.formatChoice = .error (.output (.unknownFormat ext)) := by
  rw [planFor_eq] at h
  rcases bind_result_eq_error_iff.1 h with h | ⟨target, -, h⟩
  · exact .inl h
  rcases bind_result_eq_error_iff.1 h with h | ⟨-, -, h⟩
  · unfold checkTarget at h
    split at h <;> cases h
  rcases bind_result_eq_error_iff.1 h with h | ⟨⟨ext', format⟩, -, h⟩
  · obtain ⟨f, hformat, ⟨⟩⟩ := ofFaulty_result_eq_error_iff.1 h
    exact .inr hformat
  rcases bind_result_eq_error_iff.1 h with h | ⟨name, -, h⟩
  · exact absurd h (e.destinationName_avoids _ _ _)
  · cases h

theorem planFor_unknown (htarget : (targetOf e o size real).result = .ok target)
    (hwidth : 0 < target.width) (hheight : 0 < target.height) {f : Fault}
    (hformat : PictureFormat.forChoice source o.formatChoice = .error f) :
    (planFor t e o folder source size real).result = .error (.fault f) := by
  have hcheck : checkTarget target = pure () := if_neg (by omega)
  rw [planFor_eq, bind_ok _ htarget, hcheck, Logged.pure_bind, hformat]
  rfl

/-- A pair fails for the lack of a format if its size does, or if there is none. -/
theorem attempt_eq_unknownFormat
    (h : (attempt library t e o folder source size (some real)).result =
      .error (.fault (.output (.unknownFormat ext)))) :
    (targetOf e o size real).result = .error (.fault (.output (.unknownFormat ext))) ∨
      PictureFormat.forChoice source o.formatChoice = .error (.output (.unknownFormat ext)) := by
  cases hplan : (plan t e o folder source size (some real)).result with
  | error f =>
    rw [attempt_unplanned hplan] at h
    cases h
    exact planFor_eq_unknownFormat hplan
  | ok p =>
    rw [attempt_planned hplan] at h
    exact absurd h (map_ne_error _ (carryOut_ne_unknownFormat p))

/-- A pair whose size has pixels fails for the lack of a format exactly if there is none. -/
theorem attempt_eq_unknownFormat_iff (htarget : (targetOf e o size real).result = .ok target)
    (hwidth : 0 < target.width) (hheight : 0 < target.height) :
    (attempt library t e o folder source size (some real)).result =
        .error (.fault (.output (.unknownFormat ext))) ↔
      PictureFormat.forChoice source o.formatChoice = .error (.output (.unknownFormat ext)) := by
  constructor
  · intro h
    rcases attempt_eq_unknownFormat h with h | h
    · rw [htarget] at h
      cases h
    · exact h
  · intro h
    have hplan : (plan t e o folder source size (some real)).result =
        .error (.fault (.output (.unknownFormat ext))) := planFor_unknown htarget hwidth hheight h
    rw [attempt_unplanned hplan]

end Pair

/-! ## Batches -/

/-- A pair failed because there is no format of an extension. -/
def Report.LacksFormat (r : Report) (ext : String) : Prop :=
  r.outcome = .error (.fault (.output (.unknownFormat ext)))

namespace Batch

variable {b : Batch} {sources : List String} {r : Report}

theorem lacksFormat_cases (hr : r ∈ (b.run t sources).reports) (h : r.LacksFormat ext) :
    b.engine.Raises (.output (.unknownFormat ext)) ∨
      PictureFormat.forChoice r.source b.options.formatChoice =
        .error (.output (.unknownFormat ext)) := by
  obtain ⟨u, known, hreport⟩ := run_reported b t sources r hr
  have hfailed : (b.attempt u r.source known r.size).result =
      .error (.fault (.output (.unknownFormat ext))) := by
    unfold Report.LacksFormat at h
    rw [hreport] at h
    exact h
  cases hreal : realOf u r.source known with
  | error f =>
    rw [attempt_unread hreal] at hfailed
    cases hfailed
    exact absurd (realOf_eq_error_iff.1 hreal).2 (u.probe_ne_output r.source)
  | ok real =>
    rw [attempt_read hreal] at hfailed
    rcases Pair.attempt_eq_unknownFormat hfailed with hsize | hformat
    · refine .inl ?_
      by_contra hraises
      exact Pair.targetOf_avoids hraises b.options r.size real hsize
    · exact .inr hformat

/-- Where formats are kept, only a source that is not supported lacks one. -/
theorem lacksFormat_kept (hkeep : b.options.formatChoice = .str "keep")
    (hr : r ∈ (b.run t sources).reports) (h : r.LacksFormat ext) :
    b.engine.Raises (.output (.unknownFormat ext)) ∨
      Path.isSupported r.source = false ∧ ext = Path.plainExtension r.source := by
  have hcases := lacksFormat_cases hr h
  rwa [hkeep, PictureFormat.forChoice_keep_eq_unknownFormat_iff] at hcases

/-- A batch as a whole does not fail for a fault about an output. -/
theorem run_failure_ne_output (b : Batch) (t : FileTree) (sources : List String) :
    (b.run t sources).failure ≠ some (.fault (.output fault)) := by
  rcases hmade : t.makeFolders b.folder with ⟨made, _ | f⟩
  · rw [run_made hmade]
    rcases (runSources_traverses (b := b) made sources).ends with ⟨hend, -⟩ | ⟨hend, -⟩
    · rw [hend]
      nofun
    · rw [hend]
      nofun
  · rw [run_unmade hmade]
    nofun

/-- A file is an input exactly if a batch that keeps formats has one for it; the extension of the
output is then that of the file, in small letters and without its dot.  So a batch never lacks a
format for what was gathered, if no custom function raises that very fault, and what it would lack
one for is dropped; it is lacking exactly there once a size has pixels. -/
theorem kept_formats {b : Batch} (hkeep : b.options.formatChoice = .str "keep") (t : FileTree) :
    (∀ path, (Path.isSupported path = true ↔ ∃ out, PictureFormat.forOutput path "keep" = .ok out) ∧
      ∀ ext format, PictureFormat.forOutput path "keep" = .ok (ext, format) →
        ∃ written, Path.extension path = "." ++ written ∧ '.' ∉ written.toList ∧
          ext = Text.lower written) ∧
    (∀ files folder gathered, t.gatherInputs files folder = .ok gathered →
      (files ≠ [] →
        gathered = files.filter fun path => (PictureFormat.forOutput path "keep").isOk) ∧
      (∀ path ∈ gathered, ∃ out, PictureFormat.forChoice path b.options.formatChoice = .ok out) ∧
      ∀ (u : FileTree) (ext : String),
        (b.run u gathered).failure ≠ some (.fault (.output (.unknownFormat ext))) ∧
        ∀ r ∈ (b.run u gathered).reports, r.LacksFormat ext →
          b.engine.Raises (.output (.unknownFormat ext))) ∧
    (∀ sources, ∀ r ∈ (b.run t sources).reports, ∀ ext, r.LacksFormat ext →
      b.engine.Raises (.output (.unknownFormat ext)) ∨
      ext = Path.plainExtension r.source ∧ ∀ (u : FileTree) files folder gathered,
        u.gatherInputs files folder = .ok gathered → r.source ∉ gathered) ∧
    ∀ source size real target, (Pair.targetOf b.engine b.options size real).result = .ok target →
      0 < target.width → 0 < target.height → ∀ ext,
      ((Pair.attempt b.library t b.engine b.options b.folder source size (some real)).result =
          .error (.fault (.output (.unknownFormat ext))) ↔
        Path.isSupported source = false ∧ ext = Path.plainExtension source) := by
  refine ⟨fun path => ⟨PictureFormat.isSupported_iff_forOutput path, fun ext format h =>
    PictureFormat.extension_of_forOutput_keep h⟩, ?_, ?_, ?_⟩
  · intro files folder gathered hgathered
    have hsupported := FileTree.isSupported_of_gatherInputs hgathered
    refine ⟨?_, ?_, fun u ext => ⟨run_failure_ne_output b u gathered, ?_⟩⟩
    · intro hfiles
      rw [FileTree.gatherInputs_of_files hfiles folder] at hgathered
      exact (Except.ok.inj hgathered).symm
    · intro path hpath
      rw [hkeep, PictureFormat.forChoice_keep]
      exact (PictureFormat.isSupported_iff_forOutput path).1 (hsupported path hpath)
    · intro r hr hlacks
      rcases lacksFormat_kept hkeep hr hlacks with hraises | ⟨hunsupported, -⟩
      · exact hraises
      · rw [hsupported r.source (mem_of_report hr).1] at hunsupported
        cases hunsupported
  · intro sources r hr ext hlacks
    rcases lacksFormat_kept hkeep hr hlacks with hraises | ⟨hunsupported, hext⟩
    · exact .inl hraises
    · refine .inr ⟨hext, fun u files folder gathered hgathered hmem => ?_⟩
      rw [FileTree.isSupported_of_gatherInputs hgathered r.source hmem] at hunsupported
      cases hunsupported
  · intro source size real target htarget hwidth hheight ext
    rw [Pair.attempt_eq_unknownFormat_iff htarget hwidth hheight, hkeep,
      PictureFormat.forChoice_keep_eq_unknownFormat_iff]

def halving : Batch := ⟨{}, {}, "small", .plain⟩

/-- A picture with two dots and capitals in its name, and one in a format that is not known. -/
def assorted : FileTree :=
  ⟨[(["a.tar.PNG"], .picture ⟨4, 4, "RGB", .png, []⟩),
    (["b.gif"], .picture ⟨4, 4, "P", .other "gif", []⟩)], []⟩

def assortedSize : RealDimension := ⟨.int 4, .int 4, rfl, rfl⟩

theorem kept_formats_halving :
    halving.options.formatChoice = .str "keep" ∧
    assorted.gatherInputs ["b.gif", "a.tar.PNG"] none = .ok ["a.tar.PNG"] ∧
    (∀ r ∈ (halving.run assorted ["a.tar.PNG"]).reports, ∀ ext, ¬r.LacksFormat ext) ∧
    (Pair.attempt .plain assorted halving.engine halving.options halving.folder "b.gif" (.str "50%")
      (some assortedSize)).result = .error (.fault (.output (.unknownFormat "gif"))) := by
  obtain ⟨-, hinputs, -, hpair⟩ := kept_formats (b := halving) rfl assorted
  have hgathered : assorted.gatherInputs ["b.gif", "a.tar.PNG"] none = .ok ["a.tar.PNG"] := rfl
  have hraises : ∀ f, ¬halving.engine.Raises f := by
    rintro f ⟨c, s, real, ⟨⟩⟩
  have htarget : (Pair.targetOf halving.engine halving.options (.str "50%") assortedSize).result =
      .ok ⟨2, 2⟩ := by
    decide +kernel
  refine ⟨rfl, hgathered, fun r hr ext hlacks => ?_, ?_⟩
  · exact hraises _ (((hinputs _ none _ hgathered).2.2 assorted ext).2 r hr hlacks)
  · exact (hpair "b.gif" (.str "50%") assortedSize ⟨2, 2⟩ htarget (by decide) (by decide) "gif").2
      ⟨by decide, by decide⟩

end Batch

end ImageSizing
