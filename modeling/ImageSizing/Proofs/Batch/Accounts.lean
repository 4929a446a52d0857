import Mathlib.Algebra.Group.Int.Defs
import ImageSizing.Proofs.Batch.Loop

/-!
# What a batch hands out

A batch whose folder can be made hands out one result for each pair in their order, counts
each pair once, and sends one message for each failed one, provided that the sizes of the
failed pairs have a text.  The first failed pair whose size has none ends the batch: it is
counted and neither told nor handed out (`account_complete`).
-/

namespace ImageSizing

/-- The message that goes with a result, if it is a failed one. -/
def PairResult.message? (q : PairResult) : Option String :=
  q.error.map fun e => "[Error] " ++ Path.baseName q.source ++ " @ " ++ q.size.quoted ++ " -> " ++ e

theorem Report.message?_result (r : Report) : r.result.message? = r.message? := by
  unfold Report.result Report.message?
  cases r.outcome <;> rfl

namespace Batch

/-- A result tells what came of a pair: why it failed, or where its output is and what size
this has, which is that of the given size for the real dimension that the result tells. -/
def Tells (b : Batch) (r : Report) (q : PairResult) : Prop :=
  q.source = r.source ∧ q.size = r.size ∧
    match r.outcome with
    | .error f => q.isOk = false ∧ q.error = some f.message ∧ q.destination = none ∧
        q.inSize = none ∧ q.outSize = none
    | .ok s => q.isOk = true ∧ q.error = none ∧ q.destination = some s.destination ∧
        q.inSize = some (s.real.width, s.real.height) ∧ q.outSize = some s.target ∧
        0 < s.target.width ∧ 0 < s.target.height ∧
        RealDimension.read (.tuple [.ofNumber s.real.width, .ofNumber s.real.height]) = .ok s.real ∧
        (Pair.targetOf b.engine b.options r.size s.real).result = .ok s.target

variable {b : Batch}

/-- An output has the size that its pair resolves to, and pixels in it. -/
theorem Worked.target {t u : FileTree} {rs : List Report} (h : Worked b t rs u) :
    ∀ r ∈ rs, ∀ s, r.outcome = .ok s →
      0 < s.target.width ∧ 0 < s.target.height ∧
        (Pair.targetOf b.engine b.options r.size s.real).result = .ok s.target := by
  intro r hr s hs
  obtain ⟨before, hattempt, -⟩ := h.attempted r hr s hs
  rw [attempt_known] at hattempt
  obtain ⟨p, hplan, hp, -⟩ := Pair.attempt_eq_ok hattempt
  obtain ⟨-, htarget, hwidth, hheight, -⟩ := Pair.planFor_eq_ok hplan
  rw [hp] at htarget ⊢
  exact ⟨hwidth, hheight, htarget⟩

theorem Worked.tells {t u : FileTree} {rs : List Report} (h : Worked b t rs u) {r : Report}
    (hr : r ∈ rs) : b.Tells r r.result := by
  have htarget := h.target r hr
  unfold Tells Report.result
  cases houtcome : r.outcome with
  | error f => exact ⟨rfl, rfl, rfl, rfl, rfl, rfl, rfl⟩
  | ok s =>
    obtain ⟨hwidth, hheight, hsize⟩ := htarget s houtcome
    exact ⟨rfl, rfl, rfl, rfl, rfl, rfl, rfl, hwidth, hheight, s.real.make?_axes, hsize⟩

/-! ## The ledger and the reports -/

theorem run_traverses {t : FileTree} (h : (t.makeFolders b.folder).2 = none)
    (sources : List String) : (b.run t sources).Traverses (b.pairs sources) := by
  have hmade : t.makeFolders b.folder = ((t.makeFolders b.folder).1, none) := Prod.ext rfl h
  rw [run_made hmade]
  exact runSources_traverses _ sources

section

variable (b : Batch) (t : FileTree) (sources : List String)

theorem account_results :
    (b.account t sources).1.handouts.map Handout.result =
      (b.run t sources).told.map Report.result := (account_records b t sources).1.results

theorem length_handouts :
    (b.account t sources).1.handouts.length = (b.run t sources).told.length := by
  have hlengths := congrArg List.length (account_results b t sources)
  rwa [List.length_map, List.length_map] at hlengths

theorem account_done : (b.account t sources).1.done = (b.run t sources).reports.length :=
  (account_records b t sources).1.done.trans (Nat.zero_add _)

/-- A message goes with every result of a failed pair, in their order. -/
theorem account_messages :
    (b.account t sources).1.messages =
      (b.account t sources).1.handouts.filterMap (fun q => q.result.message?) := by
  have hmessages : (b.account t sources).1.messages =
      (b.run t sources).told.filterMap Report.message? := (account_records b t sources).1.messages
  have hsame := congrArg (List.filterMap PairResult.message?) (account_results b t sources)
  rw [List.filterMap_map, List.filterMap_map] at hsame
  have htold : PairResult.message? ∘ Report.result = Report.message? :=
    funext Report.message?_result
  rw [hmessages, ← htold, ← hsame]
  rfl

theorem account_ticks :
    (b.account t sources).1.ticks =
      (List.range (b.account t sources).1.done).map (fun i => (i + 1, b.total sources)) := by
  rw [(account_records b t sources).1.ticks, account_done]
  simp only [List.nil_append, Nat.zero_add]

end

/-- A result is that of the pair of its number. -/
theorem account_handout {t : FileTree} (h : (t.makeFolders b.folder).2 = none)
    {sources : List String} {i : Nat} {q : Handout}
    (hq : (b.account t sources).1.handouts[i]? = some q) :
    ∃ r, (b.run t sources).reports[i]? = some r ∧
      sources[i / b.options.sizes.length]? = some r.source ∧
      b.options.sizes[i % b.options.sizes.length]? = some r.size ∧ b.Tells r q.result := by
  have htold : ((b.run t sources).told.map Report.result)[i]? = some q.result := by
    rw [← account_results, List.getElem?_map, hq]
    rfl
  rw [List.getElem?_map, Option.map_eq_some_iff] at htold
  obtain ⟨r, hr, hresult⟩ := htold
  have htraverses := run_traverses h sources
  have hreport := htraverses.getElem?_told hr
  obtain ⟨hsource, hsize⟩ := getElem?_pairs (htraverses.getElem?_pair hreport)
  refine ⟨r, hreport, hsource, hsize, ?_⟩
  rw [← hresult]
  exact (run_worked b t sources).tells (List.mem_of_getElem? hreport)

/-- A batch that makes its folder hands out the results of its pairs in their order, each
telling what came of its pair, and with the failed ones a message each; it counts the pairs
one by one.  It gets to the last pair if and only if every failed pair has a size with a
text, and else it stops at the first that has none, which it counts only. -/
theorem account_complete (b : Batch) {t : FileTree} (h : (t.makeFolders b.folder).2 = none)
    (sources : List String) :
    (∀ (i : Nat) (q : Handout), (b.account t sources).1.handouts[i]? = some q →
      ∃ r, (b.run t sources).reports[i]? = some r ∧
        sources[i / b.options.sizes.length]? = some r.source ∧
        b.options.sizes[i % b.options.sizes.length]? = some r.size ∧ b.Tells r q.result) ∧
    (b.account t sources).1.messages =
      (b.account t sources).1.handouts.filterMap (fun q => q.result.message?) ∧
    (b.account t sources).1.ticks =
      (List.range (b.account t sources).1.done).map (fun i => (i + 1, b.total sources)) ∧
    (((b.account t sources).2 = none ∧
        (b.account t sources).1.handouts.length = b.total sources ∧
        (b.account t sources).1.done = b.total sources) ∨
      ((b.account t sources).2 = some (.fault .numberTooLong) ∧
        (b.account t sources).1.done = (b.account t sources).1.handouts.length + 1 ∧
        (b.account t sources).1.done ≤ b.total sources ∧
        ∃ r, (b.run t sources).reports[(b.account t sources).1.handouts.length]? = some r ∧
          r.isOk = false ∧ r.size.printable = false)) ∧
    ((b.account t sources).2 = none ↔
      ∀ r ∈ (b.run t sources).reports, r.isOk = true ∨ r.size.printable = true) := by
  have htraverses := run_traverses h sources
  have hended := (account_records b t sources).2
  refine ⟨fun i q hq => account_handout h hq, account_messages b t sources,
    account_ticks b t sources, ?_, ?_⟩
  · rw [hended, account_done, length_handouts, ← length_pairs]
    rcases htraverses.ends with ⟨hend, htold, hall⟩ | ⟨hend, hle, last, hreports, huntellable⟩
    · exact .inl ⟨hend, htold ▸ hall, hall⟩
    · obtain ⟨hfailed, hprint⟩ := Report.isTellable_eq_false_iff.1 huntellable
      refine .inr ⟨hend, ?_, hle, last, ?_, hfailed, hprint⟩
      · rw [hreports, List.length_append, List.length_singleton]
      · rw [hreports, List.getElem?_concat_length]
  · rw [hended, htraverses.failure_eq_none_iff]
    have htellable : ∀ r : Report, r.isTellable = true ↔ r.isOk = true ∨ r.size.printable = true :=
      fun r => Bool.or_eq_true_iff
    simp only [htellable]

/-- A batch with a size that is refused, one that is too long to be told, and a good one. -/
def untold : Batch :=
  ⟨{}, { sizes := [.str "oops", .int (10 ^ 4300), .str "50%"] }, "out", .plain⟩

/-- A folder with one picture. -/
def album : FileTree := ⟨[(["a.png"], .picture ⟨4, 4, "RGB", .png, []⟩)], []⟩

/-- The first pair is handed out as failed, the second ends the batch, and the third is never
worked on. -/
theorem account_complete_untold :
    (album.makeFolders untold.folder).2 = none ∧
    (untold.account album ["a.png"]).2 = some (.fault .numberTooLong) ∧
    (untold.account album ["a.png"]).1.handouts.length = 1 ∧
    (untold.account album ["a.png"]).1.ticks = [(1, 3), (2, 3)] ∧
    ∃ r, (untold.run album ["a.png"]).reports[1]? = some r ∧ r.isOk = false ∧
      r.size.printable = false := by
  have hmade : (album.makeFolders untold.folder).2 = none := by decide +kernel
  have hended : (untold.account album ["a.png"]).2 = some (.fault .numberTooLong) := by
    decide +kernel
  have hhandouts : (untold.account album ["a.png"]).1.handouts.length = 1 := by decide +kernel
  obtain ⟨-, -, hticks, hends, -⟩ := account_complete untold hmade ["a.png"]
  rcases hends with ⟨hnone, -⟩ | ⟨-, hdone, -, r, hr, hfailed, hprint⟩
  · rw [hended] at hnone
    cases hnone
  · rw [hhandouts] at hdone hr
    refine ⟨hmade, hended, hhandouts, ?_, r, hr, hfailed, hprint⟩
    rw [hticks, hdone]
    rfl

end Batch

end ImageSizing
