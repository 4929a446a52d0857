import ImageSizing.Proofs.Batch.Loop

/-!
# Failed pairs leave no trace

A pair that the loop hands out as failed left the tree as it was, if a failed save does: saving
is the one thing that changes the tree, and nothing that can fail comes after.  So the tree and
the good results of a batch come about by the pairs that succeeded alone, one attempt after the
other, each with the real dimension that its result tells (`account_failed_pairs`).
-/

namespace ImageSizing

/-- The pairs of a run that succeeded, each with the real dimension of its source. -/
def BatchRun.succeeded (run : BatchRun) : List (String × Value × RealDimension) :=
  run.reports.filterMap fun r => r.saved?.map fun s => (r.source, r.size, s.real)

namespace Batch

/-- Attempts pairs of sources of given real dimensions, up to the first that fails. -/
def performAll (b : Batch) : FileTree → List (String × Value × RealDimension) →
    Except Failure (FileTree × List PairResult)
  | t, [] => .ok (t, [])
  | t, (source, size, real) :: rest => do
    let a := Pair.attempt b.library t b.engine b.options b.folder source size (some real)
    let s ← a.result
    let (last, results) ← performAll b a.tree rest
    return (last, .ofSaved source size s :: results)

variable {b : Batch}

theorem performAll_cons {t last : FileTree} {source : String} {size : Value} {s : Saved}
    {rest : List (String × Value × RealDimension)} {results : List PairResult}
    (hfirst : (b.attempt t source (some s.real) size).result = .ok s)
    (hrest : b.performAll (b.attempt t source (some s.real) size).tree rest = .ok (last, results)) :
    b.performAll t ((source, size, s.real) :: rest) =
      .ok (last, .ofSaved source size s :: results) := by
  rw [attempt_known] at hfirst hrest
  unfold performAll
  dsimp only
  rw [hfirst]
  show (b.performAll _ rest >>= fun done => _) = _
  rw [hrest]
  rfl

/-- The pairs that succeeded lead from tree to tree by themselves. -/
theorem Worked.performAll (hclean : b.FailsClean) {t u : FileTree} {rs : List Report}
    (h : Worked b t rs u) :
    b.performAll t (rs.filterMap fun r => r.saved?.map fun s => (r.source, r.size, s.real)) =
      .ok (u, (rs.map Report.result).filter PairResult.isOk) := by
  induction h with
  | done t => rfl
  | @failed t u r rest known f outcome now later ih =>
    have hresult : ¬r.result.isOk = true := by
      unfold Report.result
      rw [outcome]
      exact Bool.false_ne_true
    rw [attempt_failed hclean now] at ih
    rw [List.filterMap_cons_none (by rw [Report.saved?_of_error outcome]; rfl), List.map_cons,
      List.filter_cons_of_neg hresult, ih]
  | @saved t u r rest s outcome now later ih =>
    have hresult : r.result = .ofSaved r.source r.size s := by
      unfold Report.result
      rw [outcome]
    rw [List.filterMap_cons_some (by rw [Report.saved?_of_ok outcome]; rfl), List.map_cons, hresult,
      List.filter_cons_of_pos rfl]
    exact performAll_cons now ih

/-- Every good result is handed out. -/
theorem filter_results (run : BatchRun) :
    (run.told.map Report.result).filter PairResult.isOk =
      (run.reports.map Report.result).filter PairResult.isOk := by
  unfold BatchRun.told
  rw [List.filter_map, List.filter_map, List.filter_filter]
  congr 2
  funext r
  show (r.result.isOk && r.isTellable) = r.result.isOk
  rw [isOk_result]
  unfold Report.isTellable
  cases r.isOk <;> rfl

/-- The tree after a pair that was handed out as failed is the tree before it, and the last
tree of all is the one after the last pair that was handed out.  The pairs that succeeded
give the same tree and the same good results when they are performed alone, with the same
real dimensions. -/
theorem account_failed_pairs (b : Batch) (hclean : b.FailsClean) (t : FileTree)
    (sources : List String) :
    (∀ (i : Nat) (q : Handout), (b.account t sources).1.handouts[i]? = some q →
      q.result.isOk = false →
      ((b.account t sources).1.trees (t.makeFolders b.folder).1)[i]? = some q.tree) ∧
    ((b.account t sources).1.trees (t.makeFolders b.folder).1)[
      (b.account t sources).1.handouts.length]? = some (b.account t sources).1.tree ∧
    b.performAll (t.makeFolders b.folder).1 (b.run t sources).succeeded =
      .ok ((b.account t sources).1.tree,
        ((b.account t sources).1.handouts.map Handout.result).filter PairResult.isOk) := by
  obtain ⟨hrecords, -⟩ := account_records b t sources
  have hunspoilt := hrecords.unspoilt hclean _ (Ledger.unspoilt_start rfl)
  refine ⟨hunspoilt.kept, hunspoilt.last, ?_⟩
  rw [hrecords.tree, hrecords.results, List.map_nil, List.nil_append, filter_results]
  exact (run_worked b t sources).performAll hclean

/-- A batch of PNG files, with a library that cannot store all pictures in this format. -/
def storing : Batch := ⟨{}, { formatChoice := .str "png" }, "out", .emptying⟩

/-- Two pictures, the first of which cannot be stored. -/
def prints : FileTree :=
  ⟨[(["a.jpg"], .picture ⟨8, 8, "CMYK", .jpeg, []⟩), (["b.jpg"], .picture ⟨4, 4, "RGB", .jpeg, []⟩)],
    []⟩

/-- The first pair fails when it is saved, and the second alone gives the same tree. -/
theorem account_failed_pairs_storing :
    storing.FailsClean ∧
    (storing.account prints ["a.jpg", "b.jpg"]).1.handouts.map (fun q => q.result.error) =
      [some "cannot write mode CMYK as PNG", none] ∧
    ((storing.account prints ["a.jpg", "b.jpg"]).1.trees (prints.makeFolders "out").1)[0]? =
      ((storing.account prints ["a.jpg", "b.jpg"]).1.handouts[0]?).map Handout.tree ∧
    (storing.run prints ["a.jpg", "b.jpg"]).succeeded.map (fun p => p.1) = ["b.jpg"] ∧
    (storing.performAll (prints.makeFolders "out").1
        (storing.run prints ["a.jpg", "b.jpg"]).succeeded).toOption.map Prod.fst =
      some (storing.account prints ["a.jpg", "b.jpg"]).1.tree := by
  have hclean : storing.FailsClean := .inr ⟨rfl, PictureLibrary.leavesNothingNew_emptying⟩
  have herrors : (storing.account prints ["a.jpg", "b.jpg"]).1.handouts.map
      (fun q => q.result.error) = [some "cannot write mode CMYK as PNG", none] := by decide +kernel
  obtain ⟨hkept, -, halone⟩ := account_failed_pairs storing hclean prints ["a.jpg", "b.jpg"]
  refine ⟨hclean, herrors, ?_, by decide +kernel, ?_⟩
  · have hoks : (storing.account prints ["a.jpg", "b.jpg"]).1.handouts.map
        (fun q => q.result.isOk) = [false, true] := by decide +kernel
    cases hfirst : (storing.account prints ["a.jpg", "b.jpg"]).1.handouts[0]? with
    | none =>
      have hlength := congrArg List.length hoks
      rw [List.length_map, List.getElem?_eq_none_iff.1 hfirst |> Nat.le_zero.1] at hlength
      cases hlength
    | some q =>
      have hfailed : ([false, true] : List Bool)[0]? = some q.result.isOk := by
        rw [← hoks, List.getElem?_map, hfirst]
        rfl
      exact hkept 0 q hfirst (Option.some.inj hfailed).symm
  · have hfolder : storing.folder = "out" := rfl
    rw [hfolder] at halone
    rw [halone]
    rfl

end Batch

end ImageSizing
