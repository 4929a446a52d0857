import ImageSizing.Proofs.Files.FreeNames
import ImageSizing.Proofs.Batch.Effects

/-!
# Batches that may not overwrite

Where files may not be overwritten, a pair saves at an available path, so that whatever comes
of the save keeps what was there (`Pair.keeps_attempt`), and a save that succeeds puts one
picture at a location that was free (`Pair.attempt_wrote`).  What one pair keeps, a batch keeps
pair after pair (`Worked.wrote`), also when it stops early.  With a library that leaves nothing
new when a save fails, one new file is added for each pair that succeeded, and that is all
(`run_keeps_files`).
-/

namespace ImageSizing

/-- The entries of a tree that are no folders. -/
def FileTree.files (t : FileTree) : List (Location × Entry) :=
  t.entries.filter fun e => e.2 != .folder

/-- An output with the picture that was written and the location where it is. -/
structure Written where
  saved : Saved
  location : Location
  picture : Picture

/-- What is put into a tree when an output is written. -/
def Written.entry (w : Written) : Location × Entry := (w.location, .picture w.picture)

/-- One tree grows to another by folders and by some outputs, each of the wanted size if the
library keeps sizes.  The path of an output led to nothing before and leads to the output
afterwards. -/
structure Wrote (library : PictureLibrary) (t : FileTree) (written : List Written) (u : FileTree) :
    Prop where
  grown : ∃ new, t.Grown new u ∧ new.filter (fun e => e.2 != .folder) = written.map Written.entry
  leads : ∀ w ∈ written, t.hasPath w.saved.destination = false ∧
    u.look w.saved.destination = .found w.location (.picture w.picture) ∧
    (library.KeepsSizes → (⟨w.picture.width, w.picture.height⟩ : PixelSize) = w.saved.target)

namespace Wrote

variable {library : PictureLibrary}

theorem of_folders {t u : FileTree} (h : t.GrownByFolders u) : Wrote library t [] u := by
  obtain ⟨new, hgrown, hfolders⟩ := h
  refine ⟨⟨new, hgrown, ?_⟩, fun w hw => by cases hw⟩
  rw [List.map_nil, List.filter_eq_nil_iff]
  intro e he
  simp [hfolders e he]

theorem refl (t : FileTree) : Wrote library t [] t := of_folders (.refl t)

theorem keeps {t u : FileTree} {written : List Written} (h : Wrote library t written u) : t.Keeps u := by
  obtain ⟨new, hgrown, _⟩ := h.grown
  exact hgrown.keeps

theorem trans {t u v : FileTree} {written more : List Written} (h : Wrote library t written u)
    (h' : Wrote library u more v) : Wrote library t (written ++ more) v := by
  obtain ⟨new, hgrown, hnew⟩ := h.grown
  obtain ⟨new', hgrown', hnew'⟩ := h'.grown
  refine ⟨⟨new ++ new', hgrown.trans hgrown', ?_⟩, ?_⟩
  · rw [List.filter_append, hnew, hnew', List.map_append]
  · intro w hw
    rcases List.mem_append.1 hw with hw | hw
    · obtain ⟨hfree, hlook, hsize⟩ := h.leads w hw
      exact ⟨hfree, FileTree.look_found h'.keeps hlook, hsize⟩
    · obtain ⟨hfree, hlook, hsize⟩ := h'.leads w hw
      exact ⟨FileTree.hasPath_of_keeps h.keeps hfree, hlook, hsize⟩

theorem files {t u : FileTree} {written : List Written} (h : Wrote library t written u) :
    u.files = t.files ++ written.map Written.entry := by
  obtain ⟨new, hgrown, hnew⟩ := h.grown
  unfold FileTree.files
  rw [hgrown.entries, List.filter_append, hnew]

theorem location_free {t u : FileTree} {written : List Written} (h : Wrote library t written u) {w : Written}
    (hw : w ∈ written) : t.at? w.location = none := by
  obtain ⟨new, hgrown, hnew⟩ := h.grown
  have hmem : w.entry ∈ new.filter fun e => e.2 != .folder := by
    rw [hnew]
    exact List.mem_map_of_mem hw
  exact (hgrown.fresh w.entry (List.mem_filter.1 hmem).1).1

theorem locations_nodup {t u : FileTree} {written : List Written} (h : Wrote library t written u) :
    (written.map Written.location).Nodup := by
  obtain ⟨new, hgrown, hnew⟩ := h.grown
  have hlocations : written.map Written.location =
      (new.filter fun e => e.2 != .folder).map Prod.fst := by
    rw [hnew, List.map_map]
    rfl
  rw [hlocations]
  exact hgrown.nodup.sublist (List.filter_sublist.map Prod.fst)

end Wrote

/-! ## One pair -/

namespace FileTree

variable {library : PictureLibrary} {t after : FileTree} {path : String} {p : Picture}
  {format : PictureFormat} {quality : Option Int}

/-- What is saved for a path that leads to nothing comes to a free location. -/
theorem free_of_savePlace (hfree : t.hasPath path = false) {loc : Location}
    (h : t.savePlace path = .ok loc) : t.at? loc = none := by
  obtain ⟨-, ⟨e, hthere⟩ | hat, -⟩ := savePlace_eq_ok h
  · rw [hasPath_iff.2 ⟨loc, e, hthere⟩] at hfree
    cases hfree
  · exact hat

/-- Saving where nothing is puts a picture at a free location, to which the path then leads. -/
theorem savePicture_of_free (hfree : t.hasPath path = false)
    (h : t.savePicture library path p format quality = (after, none)) :
    ∃ loc stored, library.encode p format quality = .ok stored ∧ t.at? loc = none ∧
      after = t.put loc (.picture stored) ∧ after.look path = .found loc (.picture stored) := by
  obtain ⟨loc, stored, hstored, -, hplace, hput, hlook⟩ := savePicture_eq_none h
  rcases hplace with ⟨e, hthere⟩ | hat
  · rw [hasPath_iff.2 ⟨loc, e, hthere⟩] at hfree
    cases hfree
  · exact ⟨loc, stored, hstored, hat, hput, hlook⟩

/-- Whatever comes of a save where nothing is, all that was there stays. -/
theorem keeps_savePicture (library : PictureLibrary) (hfree : t.hasPath path = false) (p : Picture)
    (format : PictureFormat) (quality : Option Int) :
    t.Keeps (t.savePicture library path p format quality).1 := by
  rcases savePicture_cases library t path p format quality with
    hsame | ⟨loc, file, hplace, -, hput⟩
  · rw [hsame]
    exact .refl t
  · rw [hput]
    exact keeps_put (free_of_savePlace hfree hplace) file

end FileTree

namespace Pair

variable {library : PictureLibrary} {t : FileTree} {e : Engine} {o : BatchOptions}
  {folder source : String} {size : Value} {known : Option RealDimension}

/-- Whatever comes of an attempt that may not overwrite, all that was there stays. -/
theorem keeps_attempt (ho : o.overwrite = false) :
    t.Keeps (attempt library t e o folder source size known).tree := by
  have hattempts := attempts_attempt library t e o folder source size known
  generalize attempt library t e o folder source size known = a at hattempts
  cases hattempts with
  | stopped => exact .refl t
  | saved n planned opened ready =>
    exact FileTree.keeps_savePicture library (plan_free ho planned) _ _ n

/-- An attempt that succeeds wrote one output. -/
theorem attempt_wrote (ho : o.overwrite = false) {saved : Saved}
    (h : (attempt library t e o folder source size known).result = .ok saved) :
    ∃ w : Written, w.saved = saved ∧
      Wrote library t [w] (attempt library t e o folder source size known).tree := by
  obtain ⟨p, hplan, hs, picture, q, n, -, hready, hsave⟩ := attempt_eq_ok h
  have hfree : t.hasPath saved.destination = false := by
    rw [hs]
    exact plan_free ho hplan
  obtain ⟨loc, stored, hstored, hat, hput, hlook⟩ := FileTree.savePicture_of_free hfree hsave
  refine ⟨⟨saved, loc, stored⟩, rfl, ⟨[(loc, .picture stored)], ?_, rfl⟩, ?_⟩
  · rw [hput]
    exact .put hat (.refl _)
  · refine List.forall_mem_singleton.2 ⟨hfree, hlook, fun hsizes => ?_⟩
    exact (hsizes.encode _ _ _ _ hstored).trans (Picture.size_rendered hsizes hready)

end Pair

namespace Batch

variable {b : Batch}

theorem Worked.wrote (hb : b.options.overwrite = false) (hclean : b.library.LeavesNothingNew)
    {t u : FileTree} {rs : List Report} (h : Worked b t rs u) :
    ∃ written : List Written, rs.filterMap Report.saved? = written.map Written.saved ∧
      Wrote b.library t written u := by
  induction h with
  | done t => exact ⟨[], rfl, .refl t⟩
  | failed outcome now later ih =>
    obtain ⟨written, hsaved, hwrote⟩ := ih
    rw [attempt_failed (.inr ⟨hb, hclean⟩) now] at hwrote
    refine ⟨written, ?_, hwrote⟩
    rw [List.filterMap_cons_none (Report.saved?_of_error outcome), hsaved]
  | saved outcome now later ih =>
    obtain ⟨w, rfl, hfirst⟩ := Pair.attempt_wrote hb now
    obtain ⟨written, hsaved, hwrote⟩ := ih
    refine ⟨w :: written, ?_, hfirst.trans hwrote⟩
    rw [List.filterMap_cons_some (Report.saved?_of_ok outcome), hsaved, List.map_cons]

theorem run_wrote (hb : b.options.overwrite = false) (hclean : b.library.LeavesNothingNew)
    (t : FileTree) (sources : List String) :
    ∃ written : List Written, (b.run t sources).saved = written.map Written.saved ∧
      Wrote b.library t written (b.run t sources).tree := by
  obtain ⟨written, hsaved, hwrote⟩ := (run_worked b t sources).wrote hb hclean
  exact ⟨written, hsaved, (Wrote.of_folders (FileTree.grown_makeFolders t b.folder)).trans hwrote⟩

/-- A batch that may not overwrite keeps every file as it was, at its location and under
each of its paths.  Its outputs are at pairwise different locations that were free, under
paths that led to nothing, and they are the only new files. -/
theorem run_keeps_files (b : Batch) (hb : b.options.overwrite = false)
    (hclean : b.library.LeavesNothingNew) (t : FileTree) (sources : List String) :
    (∀ loc e, t.at? loc = some e → (b.run t sources).tree.at? loc = some e) ∧
    (∀ path loc e, t.look path = .found loc e →
      (b.run t sources).tree.look path = .found loc e) ∧
    ∃ written : List Written, (b.run t sources).saved = written.map Written.saved ∧
      (∀ w ∈ written, t.hasPath w.saved.destination = false ∧ t.at? w.location = none ∧
        (b.run t sources).tree.look w.saved.destination =
          .found w.location (.picture w.picture) ∧
        (b.library.KeepsSizes →
          (⟨w.picture.width, w.picture.height⟩ : PixelSize) = w.saved.target)) ∧
      (written.map Written.location).Nodup ∧
      (b.run t sources).tree.files =
        t.files ++ written.map fun w => (w.location, .picture w.picture) := by
  obtain ⟨written, hsaved, hwrote⟩ := run_wrote hb hclean t sources
  refine ⟨hwrote.keeps.entries, fun path loc e => FileTree.look_found hwrote.keeps, written, hsaved, ?_,
    hwrote.locations_nodup, hwrote.files⟩
  intro w hw
  obtain ⟨hfree, hlook, hsize⟩ := hwrote.leads w hw
  exact ⟨hfree, hwrote.location_free hw, hlook, hsize⟩

/-- A picture at two sizes under its own name, beside itself. -/
def beside : Batch :=
  ⟨{}, { sizes := [.str "50%", .str "2px"], nameTemplate := "\x7bname\x7d" }, ".",
    .plain⟩

/-- A folder where the third numbered name is taken. -/
def crowded : FileTree :=
  ⟨[(["a.png"], .picture ⟨4, 4, "RGB", .png, []⟩), (["a_3.png"], .other)], []⟩

/-- Both outputs go around the names that are taken, the source's own among them. -/
theorem run_keeps_files_beside :
    (beside.run crowded ["a.png"]).saved.map Saved.destination = ["./a_2.png", "./a_4.png"] ∧
    (beside.run crowded ["a.png"]).tree.at? ["a.png"] = some (.picture ⟨4, 4, "RGB", .png, []⟩) ∧
    ∃ written : List Written,
      written.map (fun w => w.saved.destination) = ["./a_2.png", "./a_4.png"] ∧
      (written.map Written.location).Nodup ∧
      (beside.run crowded ["a.png"]).tree.files =
        crowded.files ++ written.map fun w => (w.location, .picture w.picture) := by
  have hpaths : (beside.run crowded ["a.png"]).saved.map Saved.destination =
      ["./a_2.png", "./a_4.png"] := by decide +kernel
  obtain ⟨hkeeps, _, written, hsaved, _, hnodup, hfiles⟩ :=
    run_keeps_files beside rfl PictureLibrary.failsClean_plain.leavesNothingNew crowded ["a.png"]
  refine ⟨hpaths, hkeeps ["a.png"] (.picture ⟨4, 4, "RGB", .png, []⟩) rfl, written, ?_, hnodup,
    hfiles⟩
  rw [hsaved, List.map_map] at hpaths
  exact hpaths

end Batch

end ImageSizing
