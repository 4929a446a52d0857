import ImageSizing.Proofs.Batch.Steady
import ImageSizing.Proofs.Window.Commands
import ImageSizing.Proofs.Window.Transcript

/-!
# Previews and batches agree

A preview resolves all sizes against a tree that stands still, and a resize resolves them
while it writes.  Where nothing is overwritten both come to the same (`resize_as_previewed`):
the batch reads every source as the preview did, so that a size that the preview resolves is
written in that target or meets a hindrance, and one that it cannot resolve fails for the
same reason.  The folder of the outputs has to be there or to be made; where it cannot be, the
whole batch fails and no pair is reported (`resize_blocked`).
-/

namespace ImageSizing

namespace Batch

theorem mem_pairs {b : Batch} {sources : List String} {source : String} {size : Value} :
    (source, size) ∈ b.pairs sources ↔ source ∈ sources ∧ size ∈ b.options.sizes := by
  unfold pairs
  simp

end Batch

namespace Session

def transcript (s : Session) (paths : List String) : Preview.Transcript :=
  .ofPictures s.tree s.engine s.window.function s.window.sizeList paths

variable {s : Session} {paths : List String} {path size : String}

/-- The sizes of the sizes field are texts. -/
theorem mem_sizes : Value.str size ∈ (s.batch paths).options.sizes ↔ size ∈ s.window.sizeList := by
  show Value.str size ∈ s.window.sizeList.map Value.str ↔ _
  simp

/-- A resize whose folder can be made reports every pair. -/
theorem batchRun_complete (hfolder : (s.tree.makeFolders (s.window.batchFolder paths)).2 = none) :
    (s.batchRun paths).failure = none ∧
      (s.batchRun paths).reports.map Report.pair = (s.batch paths).pairs paths := by
  refine Batch.run_complete (b := s.batch paths) hfolder ?_ paths
  intro size hsize
  obtain ⟨text, -, rfl⟩ := List.mem_map.1 hsize
  rfl

theorem exists_report (hfolder : (s.tree.makeFolders (s.window.batchFolder paths)).2 = none)
    (hpath : path ∈ paths) (hsize : size ∈ s.window.sizeList) :
    ∃ r ∈ (s.batchRun paths).reports, r.pair = (path, .str size) := by
  have hpair : (path, Value.str size) ∈ (s.batch paths).pairs paths :=
    Batch.mem_pairs.2 ⟨hpath, mem_sizes.2 hsize⟩
  rw [← (batchRun_complete hfolder).2] at hpair
  exact List.mem_map.1 hpair

/-- A pair that a preview resolves comes to an output of that target or to a hindrance. -/
theorem outcome_of_resolved (hoverwrite : s.window.overwrite = false) {real : RealDimension}
    {target : PixelSize} (hline : .resolved path size real target ∈ (s.transcript paths).lines)
    {r : Report} (hr : r ∈ (s.batchRun paths).reports) (hpair : r.pair = (path, .str size)) :
    (∃ saved, r.outcome = .ok saved ∧ saved.real = real ∧ saved.target = target) ∨
    ∃ f, r.outcome = .error f ∧ f.isSizing = false ∧
      Pair.Hindrance s.library s.engine s.window.options path (.str size) target f := by
  obtain ⟨-, -, hprobe, hresolve⟩ := Preview.Transcript.ofPictures_holds _ _ _ _ _ _ hline
  obtain ⟨rfl, hvalue⟩ := Prod.mk.inj hpair
  have hraw : ∀ w h fs o x, r.size ≠ .spec w h fs o x := by
    rw [hvalue]
    nofun
  have htarget : (Pair.targetOf s.engine s.window.options r.size real).result = .ok target := by
    rw [hvalue]
    exact hresolve
  rcases Batch.run_resolved (b := s.batch paths) hoverwrite hr hraw hprobe htarget with
    hok | ⟨f, herror, hindrance⟩
  · exact .inl hok
  · rw [hvalue] at hindrance
    exact .inr ⟨f, herror, hindrance.isSizing, hindrance⟩

/-- A pair that a preview cannot resolve fails for the same reason. -/
theorem outcome_of_unresolved (hoverwrite : s.window.overwrite = false) {f : Failure}
    (hline : .unresolved path size f ∈ (s.transcript paths).lines) {r : Report}
    (hr : r ∈ (s.batchRun paths).reports) (hpair : r.pair = (path, .str size)) :
    r.outcome = .error f := by
  obtain ⟨-, -, -, real, hprobe, hresolve⟩ := Preview.Transcript.ofPictures_holds _ _ _ _ _ _ hline
  obtain ⟨rfl, hvalue⟩ := Prod.mk.inj hpair
  have htarget : (Pair.targetOf s.engine s.window.options r.size real).result = .error f := by
    rw [hvalue]
    exact hresolve
  exact Batch.run_unresolved (b := s.batch paths) hoverwrite hr hprobe htarget

theorem message?_of_error {r : Report} {f : Failure} (hpair : r.pair = (path, .str size))
    (h : r.outcome = .error f) :
    r.message? = some ("[Error] " ++ Path.baseName path ++ " @ " ++ (Value.str size).quoted
      ++ " -> " ++ f.message) := by
  obtain ⟨rfl, hvalue⟩ := Prod.mk.inj hpair
  unfold Report.message?
  rw [h, hvalue]

/-- Where nothing is overwritten and the folder of the outputs can be made, a resize runs to
its end, and what it reports agrees with what a preview before it showed.  Every pair that
the preview resolves to a target is reported with an output of this target, or with a
hindrance, which is no sizing error; every pair that the preview cannot resolve is reported
with the same failure. -/
theorem resize_as_previewed (s : Session) (hoverwrite : s.window.overwrite = false)
    {paths : List String} (hinputs : s.window.inputs s.tree = .ok paths)
    (hfolder : (s.tree.makeFolders (s.window.batchFolder paths)).2 = none) :
    (s.window.hasWork paths = true →
      s.preview.session.window.text = Preview.header paths.length s.window.sizeList.length ++
        Window.written ((s.transcript paths).lines.map Preview.Line.text) ∧
      s.resize.failure = none ∧ s.resize.session.tree = (s.batchRun paths).tree ∧
      s.resize.session.window.text = s.window.text ++ Window.written
        ((s.batchRun paths).reports.flatMap Report.lines ++
          [summary (s.batchRun paths).successes (s.batchRun paths).failures
            (s.window.batchFolder paths)])) ∧
    (∀ path size real target, .resolved path size real target ∈ (s.transcript paths).lines →
      path ∈ paths.take Preview.pictureLimit ∧ size ∈ s.window.sizeList ∧
      (∃ r ∈ (s.batchRun paths).reports, r.pair = (path, .str size)) ∧
      ∀ r ∈ (s.batchRun paths).reports, r.pair = (path, .str size) →
        (∃ saved, r.outcome = .ok saved ∧ saved.real = real ∧ saved.target = target) ∨
        ∃ f, r.outcome = .error f ∧ f.isSizing = false ∧
          Pair.Hindrance s.library s.engine s.window.options path (.str size) target f) ∧
    (∀ path size f, .unresolved path size f ∈ (s.transcript paths).lines →
      path ∈ paths.take Preview.pictureLimit ∧ size ∈ s.window.sizeList ∧
      (∃ r ∈ (s.batchRun paths).reports, r.pair = (path, .str size)) ∧
      ∀ r ∈ (s.batchRun paths).reports, r.pair = (path, .str size) →
        r.outcome = .error f ∧
        r.message? = some ("[Error] " ++ Path.baseName path ++ " @ " ++ (Value.str size).quoted
          ++ " -> " ++ f.message)) := by
  refine ⟨?_, ?_, ?_⟩
  · intro hwork
    obtain ⟨htree, hfailure⟩ := resize_of_work hinputs hwork
    have hended := (batchRun_complete hfolder).1
    refine ⟨?_, hfailure.trans hended, htree, text_resize hinputs hwork hended⟩
    rw [text_preview hinputs hwork, ← Preview.Transcript.ofPictures_shown]
    rfl
  · intro path size real target hline
    obtain ⟨hpath, hsize, -⟩ := Preview.Transcript.ofPictures_holds _ _ _ _ _ _ hline
    exact ⟨hpath, hsize, exists_report hfolder (List.mem_of_mem_take hpath) hsize,
      fun r hr hpair => outcome_of_resolved hoverwrite hline hr hpair⟩
  · intro path size f hline
    obtain ⟨hpath, hsize, -⟩ := Preview.Transcript.ofPictures_holds _ _ _ _ _ _ hline
    refine ⟨hpath, hsize, exists_report hfolder (List.mem_of_mem_take hpath) hsize, ?_⟩
    intro r hr hpair
    have herror := outcome_of_unresolved hoverwrite hline hr hpair
    exact ⟨herror, message?_of_error hpair herror⟩

/-- A folder with a picture, to be resized to a half and to a size that is none; in the place
of the outputs is a folder, or a file if this is blocked. -/
def gallery (blocked : Bool) : Session :=
  (((({ tree := ⟨[(["in"], .folder), (["in", "a.png"], .picture ⟨4, 4, "RGB", .png, []⟩),
    (["in", "output"], if blocked then .other else .folder)], []⟩ } : Session).handle
      (.chooseFolder "in")).session).handle (.setSizes "50%, oops")).session

theorem gallery_reachable (blocked : Bool) : Reachable (gallery blocked) :=
  .step (.setSizes "50%, oops") (.step (.chooseFolder "in") (.start _ _ _))

theorem gallery_inputs (blocked : Bool) :
    (gallery blocked).window.inputs (gallery blocked).tree = .ok ["in/a.png"] := by
  cases blocked <;> decide +kernel

theorem gallery_transcript (blocked : Bool) :
    ((gallery blocked).transcript ["in/a.png"]).lines =
      [.resolved "in/a.png" "50%" ⟨.int 4, .int 4, rfl, rfl⟩ ⟨2, 2⟩,
        .logged (.error "Invalid width 'oops' specified"),
        .unresolved "in/a.png" "oops" (.sizing (.invalidWidth "oops"))] := by
  cases blocked <;> decide +kernel

/-- With a folder in that place the one size is written as it was previewed, if at all, and the
other one is refused for the same reason. -/
theorem resize_as_previewed_gallery :
    (gallery false).window.overwrite = false ∧
    (gallery false).window.inputs (gallery false).tree = .ok ["in/a.png"] ∧
    ((gallery false).tree.makeFolders ((gallery false).window.batchFolder ["in/a.png"])).2 = none ∧
    (∃ r ∈ ((gallery false).batchRun ["in/a.png"]).reports, r.pair = ("in/a.png", .str "50%") ∧
      ∀ saved, r.outcome = .ok saved → saved.target = ⟨2, 2⟩) ∧
    ∃ r ∈ ((gallery false).batchRun ["in/a.png"]).reports, r.pair = ("in/a.png", .str "oops") ∧
      r.outcome = .error (.sizing (.invalidWidth "oops")) := by
  have hfolder : ((gallery false).tree.makeFolders
      ((gallery false).window.batchFolder ["in/a.png"])).2 = none := by decide +kernel
  obtain ⟨-, hresolved, hunresolved⟩ :=
    resize_as_previewed (gallery false) rfl (gallery_inputs false) hfolder
  rw [gallery_transcript] at hresolved hunresolved
  obtain ⟨-, -, ⟨half, hhalf, hpair⟩, hwritten⟩ := hresolved _ _ _ _ List.mem_cons_self
  obtain ⟨-, -, ⟨oops, hoops, hpair'⟩, hrefused⟩ := hunresolved "in/a.png" "oops"
    (.sizing (.invalidWidth "oops")) (by decide)
  refine ⟨rfl, gallery_inputs false, hfolder, ⟨half, hhalf, hpair, ?_⟩,
    oops, hoops, hpair', (hrefused oops hoops hpair').1⟩
  intro saved hok
  rcases hwritten half hhalf hpair with ⟨saved', hok', -, htarget⟩ | ⟨f, herror, -⟩
  · rw [hok'] at hok
    cases hok
    exact htarget
  · rw [herror] at hok
    cases hok

/-- With a file in that place the preview shows what is wrong with the second size, and the
resize fails and reports nothing. -/
theorem resize_blocked :
    (gallery true).resize.failure = some (.fault (.file (.alreadyExists "in/output"))) ∧
    ((gallery true).batchRun ["in/a.png"]).reports = [] ∧
    ¬∀ s : Session, Reachable s → s.window.overwrite = false → ∀ paths,
      s.window.inputs s.tree = .ok paths → (∀ path ∈ paths, s.tree.hasPath path = true) →
      ∀ path size f, .unresolved path size f ∈ (s.transcript paths).lines →
        ∃ r ∈ (s.batchRun paths).reports, r.pair = (path, .str size) ∧ r.outcome = .error f := by
  have hfailure : (gallery true).resize.failure =
      some (.fault (.file (.alreadyExists "in/output"))) := by decide +kernel
  have hreports : ((gallery true).batchRun ["in/a.png"]).reports = [] := by
    unfold batchRun
    rw [Batch.run_unmade (f := .alreadyExists "in/output") (Prod.ext rfl (by decide +kernel))]
  refine ⟨hfailure, hreports, ?_⟩
  intro hall
  obtain ⟨r, hr, -⟩ := hall (gallery true) (gallery_reachable true) rfl ["in/a.png"]
    (gallery_inputs true) (by decide +kernel) "in/a.png" "oops" (.sizing (.invalidWidth "oops"))
    (by rw [gallery_transcript]; decide)
  rw [hreports] at hr
  cases hr

end Session

end ImageSizing
