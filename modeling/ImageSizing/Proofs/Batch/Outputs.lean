import ImageSizing.Proofs.Batch.NoOverwrite

/-!
# Where outputs are in the end

The path of an output leads to a picture ever after, since files stay files; but where files
may be overwritten, a later pair may have put another picture there.  The last output at a
place decides (`Worked.output_there`):

    s ∈ run.saved → the picture at s.destination has the target of lastAt? … s.destination

Where files may not be overwritten no two outputs are at one place, and each is its own last
(`run_outputs_there`).
-/

namespace ImageSizing

/-- The last of some outputs whose path leads to the place that a path leads to. -/
def FileTree.lastAt? (t : FileTree) (outputs : List Saved) (path : String) : Option Saved :=
  outputs.reverse.find? fun s => decide (t.look s.destination = t.look path)

namespace FileTree

theorem lastAt?_cons (t : FileTree) (s : Saved) (outputs : List Saved) (path : String) :
    t.lastAt? (s :: outputs) path = (t.lastAt? outputs path).or
      (if t.look s.destination = t.look path then some s else none) := by
  unfold lastAt?
  rw [List.reverse_cons, List.find?_append, List.find?_singleton]
  simp only [decide_eq_true_eq]

theorem lastAt?_congr {t : FileTree} {path path' : String} (h : t.look path = t.look path')
    (outputs : List Saved) : t.lastAt? outputs path = t.lastAt? outputs path' := by
  unfold lastAt?
  rw [h]

theorem lastAt?_eq_none {t : FileTree} {outputs : List Saved} {path : String}
    (h : ¬∃ s ∈ outputs, t.look s.destination = t.look path) : t.lastAt? outputs path = none := by
  unfold lastAt?
  rw [List.find?_eq_none]
  intro s hs heq
  exact h ⟨s, List.mem_reverse.1 hs, of_decide_eq_true heq⟩

end FileTree

namespace Batch

variable {b : Batch}

/-- What an output is put in place of, and where its path leads later on. -/
theorem attempt_leads {t u : FileTree} {source : String} {size : Value}
    {known : Option RealDimension} {s : Saved}
    (now : (b.attempt t source known size).result = .ok s)
    (later : (b.attempt t source known size).tree.KeepsKinds u) :
    ∃ loc p e, loc ≠ [] ∧ (b.attempt t source known size).tree = t.put loc (.picture p) ∧
      (b.library.KeepsSizes → (⟨p.width, p.height⟩ : PixelSize) = s.target) ∧
      u.at? loc = some e ∧ u.look s.destination = .found loc e := by
  obtain ⟨loc, p, hfolder, hput, hlook, hsize⟩ := attempt_put now
  obtain ⟨e, -, hat, -, hwalk⟩ := FileTree.look_file later Entry.noConfusion hlook
  exact ⟨loc, p, e, FileTree.ne_nil_of_not_folder hfolder, hput, hsize, hat, hwalk⟩

/-- Every location is as it was, or an output is there. -/
theorem Worked.at?_cases (hclean : b.FailsClean) {t u : FileTree} {rs : List Report}
    (h : Worked b t rs u) (loc : Location) :
    u.at? loc = t.at? loc ∨ ∃ s ∈ rs.filterMap Report.saved?, ∃ p,
      u.look s.destination = .found loc (.picture p) ∧ u.at? loc = some (.picture p) := by
  induction h with
  | done t => exact .inl rfl
  | failed outcome now later ih =>
    rw [attempt_failed hclean now] at ih
    rw [List.filterMap_cons_none (Report.saved?_of_error outcome)]
    exact ih
  | saved outcome now later ih =>
    rw [List.filterMap_cons_some (Report.saved?_of_ok outcome)]
    rcases ih with hlater | ⟨s, hs, hleads⟩
    · obtain ⟨place, p, e, hplace, hput, -, hat, hwalk⟩ := attempt_leads now later.keepsKinds
      rw [hput, FileTree.at?_put _ hplace] at hlater
      by_cases hloc : loc = place
      · subst hloc
        rw [if_pos rfl] at hlater
        obtain rfl : e = .picture p := Option.some.inj (hat.symm.trans hlater)
        exact .inr ⟨_, List.mem_cons_self, p, hwalk, hlater⟩
      · rw [if_neg hloc] at hlater
        exact .inl hlater
    · exact .inr ⟨s, List.mem_cons_of_mem _ hs, hleads⟩

/-- A file is as it was if no output is at its place. -/
theorem Worked.at?_eq (hclean : b.FailsClean) {t u : FileTree} {rs : List Report}
    (h : Worked b t rs u) {path : String} {loc : Location} {e : Entry}
    (hpath : u.look path = .found loc e) (hat : u.at? loc = some e)
    (hno : ¬∃ s ∈ rs.filterMap Report.saved?, u.look s.destination = u.look path) :
    t.at? loc = some e := by
  rcases h.at?_cases hclean loc with hsame | ⟨s, hs, p, hwalk, hnow⟩
  · rw [← hsame, hat]
  · obtain rfl : e = .picture p := Option.some.inj (hat.symm.trans hnow)
    exact absurd ⟨s, hs, hwalk.trans hpath.symm⟩ hno

/-- The path of an output leads to a picture in the end, of the size of the last output at
that place. -/
theorem Worked.output_there (hclean : b.FailsClean) (hsizes : b.library.KeepsSizes)
    {t u : FileTree} {rs : List Report} (h : Worked b t rs u) :
    ∀ s ∈ rs.filterMap Report.saved?, ∃ last p,
      u.lastAt? (rs.filterMap Report.saved?) s.destination = some last ∧
      u.openPicture s.destination = .ok p ∧ (⟨p.width, p.height⟩ : PixelSize) = last.target := by
  induction h with
  | done t => exact List.forall_mem_nil _
  | failed outcome now later ih =>
    rw [List.filterMap_cons_none (Report.saved?_of_error outcome)]
    exact ih
  | @saved t u r rest first outcome now later ih =>
    rw [List.filterMap_cons_some (Report.saved?_of_ok outcome)]
    intro s hs
    rw [FileTree.lastAt?_cons]
    by_cases hlater : ∃ s' ∈ rest.filterMap Report.saved?, u.look s'.destination = u.look s.destination
    · -- a later output is there, and the induction hypothesis tells of the last one
      obtain ⟨s', hs', hsame⟩ := hlater
      obtain ⟨last, p, hlast, hopen, hsize⟩ := ih s' hs'
      obtain ⟨l, hlook⟩ := FileTree.openPicture_eq_ok.1 hopen
      refine ⟨last, p, ?_, FileTree.openPicture_eq_ok.2 ⟨l, by rw [← hsame, hlook]⟩, hsize⟩
      rw [FileTree.lastAt?_congr hsame.symm, hlast, Option.some_or]
    · -- nothing has been put there since
      obtain rfl : s = first := by
        rcases List.mem_cons.1 hs with heq | hrest
        · exact heq
        · exact absurd ⟨s, hrest, rfl⟩ hlater
      obtain ⟨loc, p, e, hplace, hput, hsize, hat, hwalk⟩ := attempt_leads now later.keepsKinds
      have hkept := later.at?_eq hclean hwalk hat hlater
      rw [hput, FileTree.at?_put _ hplace, if_pos rfl] at hkept
      cases hkept
      refine ⟨s, p, ?_, FileTree.openPicture_eq_ok.2 ⟨loc, hwalk⟩, hsize hsizes⟩
      rw [FileTree.lastAt?_eq_none hlater, if_pos rfl, Option.none_or]

/-! ## Outputs that cannot be replaced -/

/-- Where no two outputs are at one place, each is the last at its own. -/
theorem lastAt?_of_pairwise {t : FileTree} {outputs : List Saved}
    (h : outputs.Pairwise fun s s' => t.look s.destination ≠ t.look s'.destination) {s : Saved}
    (hs : s ∈ outputs) : t.lastAt? outputs s.destination = some s := by
  induction outputs with
  | nil => cases hs
  | cons first rest ih =>
    obtain ⟨hfirst, hrest⟩ := List.pairwise_cons.1 h
    rw [FileTree.lastAt?_cons]
    rcases List.mem_cons.1 hs with rfl | hs
    · have hnone : ¬∃ s' ∈ rest, t.look s'.destination = t.look s.destination :=
        fun ⟨s', hs', hsame⟩ => hfirst s' hs' hsame.symm
      rw [FileTree.lastAt?_eq_none hnone, if_pos rfl, Option.none_or]
    · rw [ih hrest hs, Option.some_or]

theorem run_places_differ (hb : b.options.overwrite = false)
    (hclean : b.library.LeavesNothingNew) (t : FileTree) (sources : List String) :
    (b.run t sources).saved.Pairwise fun s s' =>
      (b.run t sources).tree.look s.destination ≠ (b.run t sources).tree.look s'.destination := by
  obtain ⟨written, hsaved, hwrote⟩ := run_wrote hb hclean t sources
  rw [hsaved, List.pairwise_map]
  refine (List.pairwise_map.1 hwrote.locations_nodup).imp_of_mem ?_
  intro w w' hw hw' hne hsame
  rw [(hwrote.leads w hw).2.1, (hwrote.leads w' hw').2.1] at hsame
  exact hne (Place.found.inj hsame).1

theorem FailsClean.leavesNothingNew (h : b.FailsClean) : b.library.LeavesNothingNew :=
  h.elim PictureLibrary.FailsClean.leavesNothingNew And.right

/-- Every output that a batch reports is there in the end, with a library that keeps sizes and
whose failed saves change nothing: its path leads to a picture of the size of the last output
that was written at that place.  Where files may not be overwritten the outputs are at different
places, and each is the last at its own. -/
theorem run_outputs_there (b : Batch) (hclean : b.FailsClean) (hsizes : b.library.KeepsSizes)
    (t : FileTree) (sources : List String) :
    (∀ r ∈ (b.run t sources).reports, ∀ s, r.outcome = .ok s → ∃ last p,
      (b.run t sources).tree.lastAt? (b.run t sources).saved s.destination = some last ∧
      (b.run t sources).tree.openPicture s.destination = .ok p ∧
      (⟨p.width, p.height⟩ : PixelSize) = last.target ∧
      (b.options.overwrite = false → last = s)) ∧
    (b.options.overwrite = false → (b.run t sources).saved.Pairwise fun s s' =>
      (b.run t sources).tree.look s.destination ≠ (b.run t sources).tree.look s'.destination) := by
  refine ⟨?_, fun hb => run_places_differ hb hclean.leavesNothingNew t sources⟩
  intro r hr s hok
  have hs : s ∈ (b.run t sources).saved := BatchRun.mem_saved.2 ⟨r, hr, hok⟩
  obtain ⟨last, p, hlast, hopen, hsize⟩ :=
    (run_worked b t sources).output_there hclean hsizes s hs
  refine ⟨last, p, hlast, hopen, hsize, ?_⟩
  intro hb
  have hown := lastAt?_of_pairwise (run_places_differ hb hclean.leavesNothingNew t sources) hs
  exact Option.some.inj (hlast.symm.trans hown)

/-- A batch with two sizes of one name, which may overwrite. -/
def namesakeSizes : Batch :=
  ⟨{}, { sizes := [.str "4X4", .str "4X2"], function := .str "exact", overwrite := true }, "out",
    .plain⟩

/-- Two sizes of one name, where files may be overwritten. -/
def namesakes : BatchRun :=
  namesakeSizes.run ⟨[(["a.png"], .picture ⟨8, 8, "RGB", .png, []⟩)], []⟩ ["a.png"]

/-- Both outputs lead to the picture that was written last. -/
theorem run_outputs_there_namesakes :
    namesakeSizes.FailsClean ∧ namesakeSizes.library.KeepsSizes ∧
    namesakes.saved.map (fun s => (s.destination, s.target)) =
      [("out/a-w4.png", ⟨4, 4⟩), ("out/a-w4.png", ⟨4, 2⟩)] ∧
    ∀ r ∈ namesakes.reports, ∀ s, r.outcome = .ok s → ∃ last p,
      namesakes.tree.lastAt? namesakes.saved s.destination = some last ∧
      namesakes.tree.openPicture s.destination = .ok p ∧
      (⟨p.width, p.height⟩ : PixelSize) = last.target := by
  have hclean : namesakeSizes.FailsClean := .inl PictureLibrary.failsClean_plain
  refine ⟨hclean, PictureLibrary.keepsSizes_plain, by decide +kernel, ?_⟩
  intro r hr s hok
  obtain ⟨last, p, hlast, hopen, hsize, -⟩ :=
    (run_outputs_there namesakeSizes hclean PictureLibrary.keepsSizes_plain _ _).1 r hr s hok
  exact ⟨last, p, hlast, hopen, hsize⟩

/-- The second output takes the place of the first, and not every output has the size that was
reported for it. -/
theorem namesakes_replaced :
    namesakes.saved.map (fun s => (s.destination, s.target)) =
      [("out/a-w4.png", ⟨4, 4⟩), ("out/a-w4.png", ⟨4, 2⟩)] ∧
    namesakes.tree.openPicture "out/a-w4.png" = .ok ⟨4, 2, "RGB", .png, []⟩ ∧
    ¬∀ r ∈ namesakes.reports, ∀ s, r.outcome = .ok s →
      ∃ p, namesakes.tree.openPicture s.destination = .ok p ∧
        (⟨p.width, p.height⟩ : PixelSize) = s.target := by
  have hpaths : namesakes.saved.map (fun s => (s.destination, s.target)) =
      [("out/a-w4.png", ⟨4, 4⟩), ("out/a-w4.png", ⟨4, 2⟩)] := by decide +kernel
  have hthere : namesakes.tree.openPicture "out/a-w4.png" = .ok ⟨4, 2, "RGB", .png, []⟩ := by
    decide +kernel
  refine ⟨hpaths, hthere, ?_⟩
  intro hall
  have hfirst : ("out/a-w4.png", (⟨4, 4⟩ : PixelSize)) ∈
      namesakes.saved.map (fun s => (s.destination, s.target)) := by
    rw [hpaths]
    exact List.mem_cons_self
  obtain ⟨s, hs, hpair⟩ := List.mem_map.1 hfirst
  obtain ⟨hpath, htarget⟩ := Prod.mk.inj hpair
  obtain ⟨r, hr, hok⟩ := BatchRun.mem_saved.1 hs
  obtain ⟨p, hopen, hsize⟩ := hall r hr s hok
  rw [hpath, hthere] at hopen
  cases hopen
  rw [htarget] at hsize
  cases hsize

/-- A batch of PNG files of one name, with a library that empties the file that it cannot write. -/
def reprints : Batch :=
  ⟨{}, { nameTemplate := "print", formatChoice := .str "png", overwrite := true }, "out", .emptying⟩

/-- Two pictures, the second of which cannot be stored as PNG. -/
def pages : FileTree :=
  ⟨[(["a.png"], .picture ⟨8, 8, "RGB", .png, []⟩), (["b.jpg"], .picture ⟨8, 8, "CMYK", .jpeg, []⟩)], []⟩

/-- It is not enough that the library keeps sizes: the second pair fails and takes the output of
the first with it. -/
theorem reprints_emptied :
    reprints.library.KeepsSizes ∧
    (reprints.run pages ["a.png", "b.jpg"]).reports.map Report.isOk = [true, false] ∧
    (reprints.run pages ["a.png", "b.jpg"]).saved.map Saved.destination = ["out/print.png"] ∧
    (reprints.run pages ["a.png", "b.jpg"]).tree.openPicture "out/print.png" =
      .error (.notAnImage "out/print.png") :=
  ⟨PictureLibrary.keepsSizes_emptying, by decide +kernel, by decide +kernel, by decide +kernel⟩

end Batch

end ImageSizing
