import Mathlib.Data.List.Forall2
import ImageSizing.Proofs.Files.Filling
import ImageSizing.Proofs.Files.Folders
import ImageSizing.Proofs.Files.Putting
import ImageSizing.Proofs.Batch.Outputs
import ImageSizing.Proofs.Batch.Settling

/-!
# Batches that run twice

A batch that may overwrite is run to its end, and then run again on the tree that it left.
Both runs go pair by pair in step (`InStep`): the tree of the second run has all the outputs
from the start, but no other folders and no other sources, so that each pair plans and writes
the same picture at the same place.  What is put the second time is what was put the first
time, and the tree stays as it is (`run_again`).  One fault alone can change: a path that led
nowhere may lead through an output the second time (`Report.Recurs`).
-/

namespace ImageSizing

open FileTree

namespace Report

/-- The path that led nowhere, if that is why a pair failed. -/
def lost? (r : Report) : Option String :=
  match r.outcome with
  | .error (.fault (.file (.notFound path))) => some path
  | _ => none

/-- What a pair comes to when its batch is run again: the same, or, where a path led nowhere, that
a file of the last tree is in the way of it. -/
def Recurs (last : FileTree) (r r' : Report) : Prop :=
  r' = r ∨ ∃ path, r.lost? = some path ∧ last.look path = .belowFile ∧
    r' = { r with outcome := .error (.fault (.file (.notDirectory path))) }

theorem lost?_eq_some {r : Report} {path : String} (h : r.lost? = some path) :
    r.outcome = .error (.fault (.file (.notFound path))) := by
  unfold lost? at h
  split at h
  · rename_i lost houtcome
    rw [houtcome, Option.some.inj h]
  · cases h

theorem Recurs.isTellable {last : FileTree} {r r' : Report} (h : r.Recurs last r') :
    r'.isTellable = r.isTellable := by
  rcases h with rfl | ⟨path, hlost, -, rfl⟩
  · rfl
  · unfold Report.isTellable Report.isOk
    rw [lost?_eq_some hlost]

/-- Where no file is in the way of a path that led nowhere, all pairs come to the same. -/
theorem eq_of_recurs {last : FileTree} {rs rs' : List Report} (h : List.Forall₂ (Recurs last) rs rs')
    (hclear : ∀ r ∈ rs, ∀ path ∈ r.lost?, last.look path ≠ .belowFile) : rs' = rs := by
  induction h with
  | nil => rfl
  | cons hfirst _ ih =>
    obtain ⟨hhead, hrest⟩ := List.forall_mem_cons.1 hclear
    rw [ih hrest]
    rcases hfirst with rfl | ⟨path, hlost, hbelow, -⟩
    · rfl
    · exact absurd hbelow (hhead path hlost)

end Report

/-! ## One pair in two trees -/

variable {library : PictureLibrary} {t u : FileTree} {source : String} {real : RealDimension}

/-- A drawing in a tree, and the same drawing in a fuller one: both put the same picture at the
same location, or both fail alike. -/
inductive Drawing.Alike (t u : FileTree) : Drawing → Drawing → Prop
  | saved {calls : List RasterCall} {loc : Location} (p : Picture)
      (noFolder : t.at? loc ≠ some .folder) :
      Alike t u ⟨calls, t.put loc (.picture p), .ok ()⟩ ⟨calls, u.put loc (.picture p), .ok ()⟩
  | failed {calls : List RasterCall} {f f' : Failure} (recurs : f.Recurs u f') :
      Alike t u ⟨calls, t, .error f⟩ ⟨calls, u, .error f'⟩

/-- An attempt in a tree, and the same attempt in a fuller one. -/
inductive Attempt.Alike (t u : FileTree) : Attempt → Attempt → Prop
  | saved {entries : List LogEntry} {calls : List RasterCall} {loc : Location} {s : Saved}
      (p : Picture) (noFolder : t.at? loc ≠ some .folder) :
      Alike t u ⟨entries, calls, t.put loc (.picture p), .ok s⟩
        ⟨entries, calls, u.put loc (.picture p), .ok s⟩
  | failed {entries : List LogEntry} {calls : List RasterCall} {f f' : Failure}
      (recurs : f.Recurs u f') :
      Alike t u ⟨entries, calls, t, .error f⟩ ⟨entries, calls, u, .error f'⟩

namespace Drawing

variable {destination : String} {target : PixelSize} {format : PictureFormat} {quality : Value}

theorem write_fills (hclean : library.FailsClean) (h : t.Fills u) (p : Picture)
    (destination : String) (target : PixelSize) (format : PictureFormat) (quality : Value) :
    Alike t u (write library t p destination target format quality)
      (write library u p destination target format quality) := by
  cases hready : (p.rendered library target format).result with
  | error f =>
    rw [write_unready hready, write_unready hready]
    exact .failed (.same _)
  | ok q =>
    cases hquality : qualityFor format quality with
    | error f =>
      rw [write_unencoded hready hquality, write_unencoded hready hquality]
      exact .failed (.same _)
    | ok n =>
      rw [write_ready hready hquality, write_ready hready hquality]
      rcases savePicture_fills hclean h destination q format n with
        ⟨loc, stored, hfolder, hsave, hagain⟩ | ⟨f, f', hsave, hagain, hrecurs⟩
      · rw [hsave, hagain]
        exact .saved stored hfolder
      · rw [hsave, hagain]
        exact .failed hrecurs

theorem draw_fills (hclean : library.FailsClean) (h : t.Fills u) (hsame : t.SameFile u source)
    (destination : String) (target : PixelSize) (format : PictureFormat) (quality : Value) :
    Alike t u (draw library t source destination target format quality)
      (draw library u source destination target format quality) := by
  rcases openPicture_fills h hsame with ⟨p, hopen, hagain⟩ | ⟨f, f', hopen, hagain, hrecurs⟩
  · rw [draw_opened hopen, draw_opened hagain]
    exact write_fills hclean h p destination target format quality
  · rw [draw_unopened hopen, draw_unopened hagain]
    exact .failed hrecurs

end Drawing

theorem FileTree.probe_fills (h : t.Fills u) (hsame : t.SameFile u source) :
    (∃ r, t.probe source = .ok r ∧ u.probe source = .ok r) ∨
      ∃ f f', t.probe source = .error f ∧ u.probe source = .error f' ∧ f.Recurs u f' := by
  unfold probe
  rcases openPicture_fills h hsame with ⟨p, hopen, hagain⟩ | ⟨f, f', hopen, hagain, hrecurs⟩
  · rw [hopen, hagain]
    cases hmake : (RealDimension.make? (.int p.width) (.int p.height)).mapError Failure.fault with
    | ok r => exact .inl ⟨r, hmake, hmake⟩
    | error f => exact .inr ⟨f, f, hmake, hmake, .same f⟩
  · rw [hopen, hagain]
    exact .inr ⟨_, _, rfl, rfl, hrecurs⟩

/-- A plan that may overwrite does not look at the tree. -/
theorem Pair.planFor_congr {e : Engine} {o : BatchOptions} (ho : o.overwrite = true)
    (t u : FileTree) (folder source : String) (size : Value) (real : RealDimension) :
    planFor t e o folder source size real = planFor u e o folder source size real := by
  unfold planFor destination
  rw [ho]
  rfl

theorem Pair.attempt_alike {e : Engine} {o : BatchOptions} (hclean : library.FailsClean)
    (ho : o.overwrite = true) (h : t.Fills u) (hsame : t.SameFile u source) (folder : String)
    (size : Value) (real : RealDimension) :
    Attempt.Alike t u (attempt library t e o folder source size (some real))
      (attempt library u e o folder source size (some real)) := by
  have hplan : plan u e o folder source size (some real) = plan t e o folder source size (some real) :=
    planFor_congr ho u t folder source size real
  cases hfirst : (plan t e o folder source size (some real)).result with
  | error f =>
    have hsecond : (plan u e o folder source size (some real)).result = .error f := by
      rw [hplan, hfirst]
    rw [attempt_unplanned hfirst, attempt_unplanned hsecond, hplan]
    exact .failed (.same f)
  | ok p =>
    have hsecond : (plan u e o folder source size (some real)).result = .ok p := by
      rw [hplan, hfirst]
    rw [attempt_planned hfirst, attempt_planned hsecond, hplan]
    have halike := Drawing.draw_fills hclean h hsame p.destination p.target p.format o.quality
    unfold carryOut
    generalize Drawing.draw library t source p.destination p.target p.format o.quality = drawing
      at halike
    generalize Drawing.draw library u source p.destination p.target p.format o.quality = drawing'
      at halike
    cases halike with
    | saved q noFolder => exact .saved q noFolder
    | failed recurs => exact .failed recurs

namespace Batch

variable {b : Batch}

/-- Reading the real dimension of a source, unless it is known, comes to the same in both trees. -/
theorem realOf_fills (h : t.Fills u) (hsame : t.SameFile u source) (known : Option RealDimension) :
    (∃ r, realOf t source known = .ok r ∧ realOf u source known = .ok r) ∨
      ∃ f f', realOf t source known = .error f ∧ realOf u source known = .error f' ∧
        f.Recurs u f' := by
  cases known with
  | some r => exact .inl ⟨r, rfl, rfl⟩
  | none => exact probe_fills h hsame

theorem attempt_alike (hclean : b.library.FailsClean) (hb : b.options.overwrite = true)
    (h : t.Fills u) (hsame : t.SameFile u source) (known : Option RealDimension) (size : Value) :
    Attempt.Alike t u (b.attempt t source known size) (b.attempt u source known size) ∧
      knownAfter u source known = knownAfter t source known := by
  rcases realOf_fills h hsame known with ⟨r, hfirst, hagain⟩ | ⟨f, f', hfirst, hagain, hrecurs⟩
  · rw [attempt_read hfirst, attempt_read hagain, knownAfter_read hfirst, knownAfter_read hagain]
    exact ⟨Pair.attempt_alike hclean hb h hsame b.folder size r, rfl⟩
  · rw [attempt_unread hfirst, attempt_unread hagain, knownAfter_unread hfirst,
      knownAfter_unread hagain]
    exact ⟨.failed hrecurs, rfl⟩

/-! ## Two runs in step -/

/-- The trees of two runs, the second of which started from the last tree of the first: the
folders are the same, and so are the files of the sources. -/
structure InStep (last : FileTree) (sources : List String) (t u : FileTree) : Prop where
  fills : t.Fills u
  filled : u.Fills last
  alike : ∀ source ∈ sources, ∀ l e, e ≠ .folder → last.look source = .found l e →
    t.at? l = u.at? l

variable {last : FileTree} {sources : List String}

theorem InStep.sameFile (h : InStep last sources t u) (hsource : source ∈ sources) :
    t.SameFile u source := by
  intro l e he hlook
  obtain ⟨e', -, -, he', hlast⟩ := look_file h.filled.kinds he hlook
  exact h.alike source hsource l e' he' hlast

/-- What is put into both trees keeps them in step if it is there in the end. -/
theorem InStep.put (h : InStep last sources t u) {loc : Location} {p : Picture}
    (hfolder : t.at? loc ≠ some .folder) (later : (t.put loc (.picture p)).KeepsKinds last) :
    InStep last sources (t.put loc (.picture p)) (u.put loc (.picture p)) := by
  have hne := ne_nil_of_not_folder hfolder
  obtain ⟨e, hat, hkind⟩ := later.entries loc (.picture p) (by rw [at?_put t hne, if_pos rfl])
  refine ⟨h.fills.put hfolder _, h.filled.put_left hat (fun he => nomatch hkind.1 he) nofun, ?_⟩
  intro source hsource l e' he' hlook
  rw [at?_put t hne, at?_put u hne]
  split
  · rfl
  · exact h.alike source hsource l e' he' hlook

/-- What two runs in step come to: both put the same pictures, and their reports are the same but
for a file that is in the way the second time. -/
structure Rerun (last : FileTree) (sources : List String) (t u : FileTree) (run again : BatchRun) :
    Prop where
  puts : ∃ puts, run.tree = t.putAll puts ∧ again.tree = u.putAll puts
  inStep : InStep last sources run.tree again.tree
  failure : again.failure = run.failure
  reports : List.Forall₂ (Report.Recurs last) run.reports again.reports

/-- More pairs in front, which put some pictures into both trees. -/
theorem Rerun.append {t' u' : FileTree} {rs rs' : List Report} {run again : BatchRun}
    (h : Rerun last sources t' u' run again)
    (hputs : ∃ puts, t' = t.putAll puts ∧ u' = u.putAll puts)
    (hreports : List.Forall₂ (Report.Recurs last) rs rs') :
    Rerun last sources t u (run.append rs) (again.append rs') := by
  obtain ⟨puts, rfl, rfl⟩ := hputs
  obtain ⟨later, htree, hagain⟩ := h.puts
  refine ⟨⟨puts ++ later, ?_, ?_⟩, h.inStep, h.failure, List.rel_append hreports h.reports⟩
  · rw [putAll_append]
    exact htree
  · rw [putAll_append]
    exact hagain

/-- A pair in step: what it reports, and the trees after it. -/
theorem attempt_rerun (hclean : b.library.FailsClean) (hb : b.options.overwrite = true)
    (h : InStep last sources t u) (hsource : source ∈ sources) (known : Option RealDimension)
    (size : Value) (later : (b.attempt t source known size).tree.KeepsKinds last) :
    InStep last sources (b.attempt t source known size).tree
        (b.attempt u source known size).tree ∧
      (∃ puts, (b.attempt t source known size).tree = t.putAll puts ∧
        (b.attempt u source known size).tree = u.putAll puts) ∧
      (report source size (b.attempt t source known size)).Recurs last
        (report source size (b.attempt u source known size)) ∧
      knownAfter u source known = knownAfter t source known := by
  obtain ⟨halike, hknown⟩ :=
    attempt_alike hclean hb h.fills (h.sameFile hsource) known size
  rw [hknown]
  generalize b.attempt t source known size = a at halike later ⊢
  generalize b.attempt u source known size = a' at halike ⊢
  cases halike with
  | @saved entries calls loc s p noFolder =>
    exact ⟨h.put noFolder later, ⟨[(loc, .picture p)], rfl, rfl⟩, .inl rfl, rfl⟩
  | failed recurs =>
    refine ⟨h, ⟨[], rfl, rfl⟩, ?_, rfl⟩
    cases h.filled.recurs recurs with
    | same => exact .inl rfl
    | @blocked path below => exact .inr ⟨path, rfl, below, rfl⟩

theorem runSizes_rerun (hclean : b.library.FailsClean) (hb : b.options.overwrite = true)
    (hsource : source ∈ sources) (h : InStep last sources t u) (known : Option RealDimension)
    (sizes : List Value)
    (later : (b.runSizes source t known sizes).tree.KeepsKinds last) :
    Rerun last sources t u (b.runSizes source t known sizes) (b.runSizes source u known sizes) := by
  induction sizes generalizing t u known with
  | nil => exact ⟨⟨[], rfl, rfl⟩, h, rfl, .nil⟩
  | cons size rest ih =>
    have hrest := runSizes_worked (b := b) source (b.attempt t source known size).tree
      (knownAfter t source known) rest
    rw [runSizes_cons] at later
    rw [runSizes_cons, runSizes_cons]
    cases htell : (report source size (b.attempt t source known size)).isTellable with
    | true =>
      rw [htell, if_pos rfl] at later
      obtain ⟨hstep, hputs, hreport, hknown⟩ :=
        attempt_rerun hclean hb h hsource known size (hrest.keepsKinds.trans later)
      rw [if_pos rfl, if_pos (hreport.isTellable.trans htell), hknown]
      exact (ih hstep (knownAfter t source known) later).append hputs (.cons hreport .nil)
    | false =>
      rw [htell, if_neg Bool.false_ne_true] at later
      obtain ⟨hstep, hputs, hreport, -⟩ := attempt_rerun hclean hb h hsource known size later
      have htell' := hreport.isTellable.trans htell
      rw [if_neg Bool.false_ne_true, if_neg (by rw [htell']; exact Bool.false_ne_true)]
      exact ⟨hputs, hstep, rfl, .cons hreport .nil⟩

theorem runSources_rerun (hclean : b.library.FailsClean) (hb : b.options.overwrite = true)
    (h : InStep last sources t u) {part : List String} (hpart : ∀ source ∈ part, source ∈ sources)
    (later : (b.runSources t part).tree.KeepsKinds last) :
    Rerun last sources t u (b.runSources t part) (b.runSources u part) := by
  induction part generalizing t u with
  | nil => exact ⟨⟨[], rfl, rfl⟩, h, rfl, .nil⟩
  | cons source rest ih =>
    obtain ⟨hsource, hrest⟩ := List.forall_mem_cons.1 hpart
    have hworked := runSources_worked (b := b) (b.runSizes source t none b.options.sizes).tree rest
    rw [runSources_cons] at later
    rw [runSources_cons, runSources_cons]
    cases hfailure : (b.runSizes source t none b.options.sizes).failure with
    | some f =>
      rw [hfailure] at later
      have hfirst := runSizes_rerun hclean hb hsource h none b.options.sizes later
      rw [hfirst.failure, hfailure]
      exact hfirst
    | none =>
      rw [hfailure] at later
      have hfirst := runSizes_rerun hclean hb hsource h none b.options.sizes
        (hworked.keepsKinds.trans later)
      rw [hfirst.failure, hfailure]
      exact (ih hfirst.inStep hrest later).append hfirst.puts hfirst.reports

/-! ## The second run -/

theorem Worked.fills (hclean : b.FailsClean) {rs : List Report} (h : Worked b t rs u) :
    t.Fills u := by
  induction h with
  | done t => exact .refl t
  | failed outcome now later ih =>
    rw [attempt_failed hclean now] at ih
    exact ih
  | saved outcome now later ih =>
    obtain ⟨loc, p, hfolder, hput, -⟩ := attempt_put now
    rw [hput] at ih
    have hfile : Entry.picture p ≠ .folder := nofun
    exact (FileTree.fills_put hfolder hfile).trans ih

section

variable (hclean : b.library.FailsClean) (hb : b.options.overwrite = true)
  (hapart : ∀ source ∈ sources, ∀ s ∈ (b.run t sources).saved,
    (b.run t sources).tree.look source ≠ (b.run t sources).tree.look s.destination)

include hclean hapart

/-- The tree of a batch fills the one with its folder alone, with the same files at its sources. -/
theorem inStep_made {made : FileTree} (hmade : t.makeFolders b.folder = (made, none)) :
    InStep (b.run t sources).tree sources made (b.run t sources).tree := by
  have hworked := run_worked b t sources
  rw [hmade] at hworked
  refine ⟨hworked.fills (.inl hclean), .refl _, ?_⟩
  intro source hsource l e he hlook
  rcases hworked.at?_cases (.inl hclean) l with hsame | ⟨s, hs, p, hwalk, hnow⟩
  · exact hsame.symm
  · -- an output would be at the place of a source
    obtain ⟨_, hat, -⟩ := look_file (.refl _) he hlook
    obtain rfl : e = .picture p := Option.some.inj (hat.symm.trans hnow)
    exact absurd (hlook.trans hwalk.symm) (hapart source hsource s hs)

include hb

/-- A second run whose folder is there to be worked in goes in step with the first. -/
theorem run_again_made {made : FileTree} (hmade : t.makeFolders b.folder = (made, none))
    (hagain : (b.run t sources).tree.makeFolders b.folder = ((b.run t sources).tree, none)) :
    Rerun (b.run t sources).tree sources made (b.run t sources).tree (b.run t sources)
      (b.run (b.run t sources).tree sources) := by
  have hstep := inStep_made hclean hapart hmade
  rw [run_made hagain]
  rw [run_made hmade] at hstep ⊢
  exact runSources_rerun hclean hb hstep (fun _ h => h) (.refl _)

/-- Where the folder of a batch is one in the end, a second run goes in step with the first. -/
theorem run_again_of_folder (hfolder : (b.run t sources).tree.isFolder b.folder = true) :
    Rerun (b.run t sources).tree sources (t.makeFolders b.folder).1 (b.run t sources).tree
      (b.run t sources) (b.run (b.run t sources).tree sources) := by
  rcases hmade : t.makeFolders b.folder with ⟨made, _ | f⟩
  · exact run_again_made hclean hb hapart hmade (makeFolders_of_isFolder hfolder)
  · rw [run_unmade hmade, isFolder_of_makeFoldersWithin hmade] at hfolder
    cases hfolder

/-- A second run leaves the tree as it is. -/
theorem run_again_tree :
    (b.run (b.run t sources).tree sources).tree = (b.run t sources).tree := by
  rcases hmade : t.makeFolders b.folder with ⟨made, _ | f⟩
  · -- the folders are there, and the files that have come since make no others necessary
    have hsame : (made.makeFolders b.folder).1 = made := by
      have htwice := makeFolders_makeFolders t b.folder
      rw [hmade] at htwice
      exact htwice
    have hfills := (inStep_made hclean hapart hmade).fills
    have hagain := makeFolders_fills hfills hsame
    rcases hsecond : (b.run t sources).tree.makeFolders b.folder with ⟨made', _ | f⟩
    · rw [hsecond] at hagain
      dsimp only at hagain
      rw [hagain] at hsecond
      obtain ⟨puts, hfirst, hputs⟩ := (run_again_made hclean hb hapart hmade hsecond).puts
      rw [hputs]
      nth_rewrite 1 [hfirst]
      rw [putAll_putAll, hfirst]
    · rw [hsecond] at hagain
      rw [run_unmade hsecond]
      exact hagain
  · obtain ⟨f', hagain⟩ := makeFolders_failed hmade
    rw [run_unmade hmade]
    dsimp only
    rw [run_unmade hagain]

end

/-- A batch that may overwrite, whose failed saves change nothing and none of whose outputs is at
the place of a source, leaves the tree as it is when it is run again.  If its folder is there in
the end, it also ends as it did the first time, and its pairs come to the same once more: to all
the same, unless a file is in the way of a path that led nowhere. -/
theorem run_again (b : Batch) (hclean : b.library.FailsClean) (hb : b.options.overwrite = true)
    (t : FileTree) (sources : List String)
    (hapart : ∀ source ∈ sources, ∀ s ∈ (b.run t sources).saved,
      (b.run t sources).tree.look source ≠ (b.run t sources).tree.look s.destination) :
    (b.run (b.run t sources).tree sources).tree = (b.run t sources).tree ∧
    ((b.run t sources).tree.isFolder b.folder = true →
      (b.run (b.run t sources).tree sources).failure = (b.run t sources).failure ∧
      List.Forall₂ (Report.Recurs (b.run t sources).tree) (b.run t sources).reports
        (b.run (b.run t sources).tree sources).reports ∧
      ((∀ r ∈ (b.run t sources).reports, ∀ path ∈ r.lost?,
          (b.run t sources).tree.look path ≠ .belowFile) →
        b.run (b.run t sources).tree sources = b.run t sources)) := by
  have htree := run_again_tree hclean hb hapart
  refine ⟨htree, fun hfolder => ?_⟩
  have hrerun := run_again_of_folder hclean hb hapart hfolder
  refine ⟨hrerun.failure, hrerun.reports, fun hclear => ?_⟩
  have hreports := Report.eq_of_recurs hrerun.reports hclear
  have hfailure := hrerun.failure
  generalize b.run (b.run t sources).tree sources = again at htree hfailure hreports
  generalize b.run t sources = first at htree hfailure hreports
  cases again
  cases first
  cases htree
  cases hfailure
  cases hreports
  rfl

def portrait : FileTree := ⟨[(["a.png"], .picture ⟨8, 8, "RGB", .png, []⟩)], []⟩

/-- Two sizes of one name, and a size that cannot be read between them. -/
def colliding : Batch :=
  ⟨{}, { sizes := [.str "4X4", .str "oops", .str "4X2"], function := .str "exact", overwrite := true },
    "out", .plain⟩

/-- Outputs that take each other's place do so again. -/
theorem run_again_colliding :
    (colliding.run portrait ["a.png"]).saved.map Saved.destination =
      ["out/a-w4.png", "out/a-w4.png"] ∧
    colliding.run (colliding.run portrait ["a.png"]).tree ["a.png"] =
      colliding.run portrait ["a.png"] := by
  refine ⟨by decide +kernel, ?_⟩
  obtain ⟨-, hreports⟩ := run_again colliding PictureLibrary.failsClean_plain rfl portrait ["a.png"]
    (by decide +kernel)
  exact (hreports (by decide +kernel)).2.2 (by decide +kernel)

/-- Below a name that the second size gives to its output. -/
def blocking : Batch :=
  ⟨{}, { sizes := [.map [(.str "name", .str "b.png/c"), (.str "width", .int 2)],
    .map [(.str "name", .str "b"), (.str "width", .int 2)]], overwrite := true }, "out",
    .plain⟩

/-- A folder that is found missing at first, and then to be no folder. -/
def misplaced : Batch := ⟨{}, { sizes := [.str "50%"], overwrite := true }, "x/../a.png/.", .plain⟩

/-- A second run need not come to the same results: the first run may have put a file, or made a
folder, on the way of a path that led nowhere. -/
theorem rerun_differs :
    ((∀ source ∈ ["a.png"], ∀ s ∈ (blocking.run portrait ["a.png"]).saved,
        (blocking.run portrait ["a.png"]).tree.look source ≠
          (blocking.run portrait ["a.png"]).tree.look s.destination) ∧
      (blocking.run portrait ["a.png"]).reports.map (fun r => r.result.error) =
        [some "[Errno 2] No such file or directory: 'out/b.png/c.png'", none] ∧
      (blocking.run (blocking.run portrait ["a.png"]).tree ["a.png"]).reports.map
          (fun r => r.result.error) =
        [some "[Errno 20] Not a directory: 'out/b.png/c.png'", none]) ∧
    (misplaced.run portrait ["a.png"]).saved.map Saved.destination = [] ∧
      (misplaced.run portrait ["a.png"]).failure = none ∧
      (misplaced.run (misplaced.run portrait ["a.png"]).tree ["a.png"]).failure =
        some (.fault (.file (.notDirectory "x/../a.png/."))) := by
  refine ⟨⟨by decide +kernel, by decide +kernel, by decide +kernel⟩, by decide +kernel,
    by decide +kernel, by decide +kernel⟩

end Batch

end ImageSizing
