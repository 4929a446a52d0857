import ImageSizing.Proofs.Batch.Settling

/-!
# The loop and its run

The loop of a batch comes to what `Batch.run` says (`account_records`): to its tree, its log,
its calls and its end; it hands out the results of the reports that can be told, sends their
messages, and counts all of them.  Between the pairs it is seen that one that failed left
the tree as it was (`Ledger.Unspoilt`), if the failed saves of the batch do.
-/

namespace ImageSizing

/-! ## Trees between pairs -/

namespace Ledger

/-- The tree before the first pair and after each pair that was handed out. -/
def trees (made : FileTree) (l : Ledger) : List FileTree := made :: l.handouts.map Handout.tree

/-- A pair that was handed out as failed left the tree as it was before the pair, and so did
one that could not be handed out. -/
structure Unspoilt (made : FileTree) (l : Ledger) : Prop where
  kept : ∀ (i : Nat) (q : Handout), l.handouts[i]? = some q → q.result.isOk = false →
    (l.trees made)[i]? = some q.tree
  last : (l.trees made)[l.handouts.length]? = some l.tree

variable {made : FileTree} {l l' : Ledger}

theorem unspoilt_start {l : Ledger} (h : l.handouts = []) : l.Unspoilt l.tree := by
  constructor
  · intro i q hq
    rw [h] at hq
    cases hq
  · rw [h]
    rfl

/-- Unless a pair is handed out, the tree alone matters. -/
theorem Unspoilt.of_eq (h : l.Unspoilt made) (hhandouts : l'.handouts = l.handouts)
    (htree : l'.tree = l.tree) : l'.Unspoilt made := by
  have htrees : l'.trees made = l.trees made := by
    unfold trees
    rw [hhandouts]
  constructor
  · rw [hhandouts, htrees]
    exact h.kept
  · rw [hhandouts, htrees, htree]
    exact h.last

/-- A pair that is handed out may change the tree if it succeeded. -/
theorem Unspoilt.handOut (h : l.Unspoilt made) {r : PairResult}
    (hhandouts : l'.handouts = l.handouts ++ [⟨r, l'.tree⟩])
    (hfailed : r.isOk = false → l'.tree = l.tree) : l'.Unspoilt made := by
  have htrees : l'.trees made = l.trees made ++ [l'.tree] := by
    unfold trees
    rw [hhandouts, List.map_append, List.cons_append]
    rfl
  have hlength : (l.trees made).length = l.handouts.length + 1 := by
    unfold trees
    rw [List.length_cons, List.length_map]
  constructor
  · intro i q hq hr
    have hi := (List.getElem?_eq_some_iff.1 hq).1
    rw [hhandouts] at hq hi
    rw [List.length_append, List.length_singleton] at hi
    rw [htrees, List.getElem?_append_left (by omega)]
    by_cases hlast : i = l.handouts.length
    · subst hlast
      rw [List.getElem?_concat_length] at hq
      cases hq
      rw [h.last, hfailed hr]
    · rw [List.getElem?_append_left (by omega)] at hq
      exact h.kept i q hq hr
  · rw [htrees, hhandouts, List.length_append, List.length_singleton, ← hlength,
      List.getElem?_concat_length]

end Ledger

/-! ## Runs -/

theorem BatchRun.entries_singleton (t : FileTree) (r : Report) (failure : Option Failure) :
    BatchRun.entries ⟨t, [r], failure⟩ = r.entries := List.flatMap_singleton _ _

theorem BatchRun.calls_singleton (t : FileTree) (r : Report) (failure : Option Failure) :
    BatchRun.calls ⟨t, [r], failure⟩ = r.calls := List.flatMap_singleton _ _

/-- What a run of a batch adds to a ledger. -/
structure Ledger.Records (b : Batch) (total : Nat) (l : Ledger) (run : BatchRun) (l' : Ledger) :
    Prop where
  tree : l'.tree = run.tree
  entries : l'.entries = l.entries ++ run.entries
  calls : l'.calls = l.calls ++ run.calls
  results : l'.handouts.map Handout.result =
    l.handouts.map Handout.result ++ run.told.map Report.result
  messages : l'.messages = l.messages ++ run.told.filterMap Report.message?
  done : l'.done = l.done + run.reports.length
  ticks : l'.ticks = l.ticks ++ (List.range run.reports.length).map fun i => (l.done + i + 1, total)
  unspoilt : b.FailsClean → ∀ made, l.Unspoilt made → l'.Unspoilt made

namespace Ledger.Records

variable {b : Batch} {total : Nat} {l m l' : Ledger} {run run' : BatchRun}

theorem refl (b : Batch) (total : Nat) (l : Ledger) (failure : Option Failure) :
    Records b total l ⟨l.tree, [], failure⟩ l := by
  constructor <;> simp [BatchRun.entries, BatchRun.calls, BatchRun.told]

/-- What is known of a source when the run starts is not recorded. -/
theorem of_knowing {known : Option RealDimension} (h : Records b total (l.knowing known) run l') :
    Records b total l run l' where
  tree := h.tree
  entries := h.entries
  calls := h.calls
  results := h.results
  messages := h.messages
  done := h.done
  ticks := h.ticks
  unspoilt := fun hclean made hl => h.unspoilt hclean made (hl.of_eq rfl rfl)

theorem trans (h : Records b total l run m) (h' : Records b total m run' l') :
    Records b total l (run'.append run.reports) l' where
  tree := h'.tree
  entries := by
    rw [h'.entries, h.entries, List.append_assoc]
    unfold BatchRun.entries BatchRun.append
    rw [List.flatMap_append]
  calls := by
    rw [h'.calls, h.calls, List.append_assoc]
    unfold BatchRun.calls BatchRun.append
    rw [List.flatMap_append]
  results := by
    rw [h'.results, h.results, List.append_assoc, ← List.map_append]
    unfold BatchRun.told BatchRun.append
    rw [List.filter_append]
  messages := by
    rw [h'.messages, h.messages, List.append_assoc, ← List.filterMap_append]
    unfold BatchRun.told BatchRun.append
    rw [List.filter_append]
  done := by
    rw [h'.done, h.done, Nat.add_assoc]
    unfold BatchRun.append
    rw [List.length_append]
  ticks := by
    rw [h'.ticks, h.ticks, h.done, List.append_assoc]
    unfold BatchRun.append
    rw [List.length_append, List.range_add, List.map_append, List.map_map]
    simp only [Function.comp_def, Nat.add_assoc]
  unspoilt := fun hclean made hl => h'.unspoilt hclean made (h.unspoilt hclean made hl)

end Ledger.Records

namespace Batch

open Work

variable {b : Batch}

theorem tree_of_failed (hclean : b.FailsClean) {t : FileTree} {source : String}
    {known : Option RealDimension} {size : Value}
    (h : (report source size (b.attempt t source known size)).isOk = false) :
    (b.attempt t source known size).tree = t := by
  cases hresult : (b.attempt t source known size).result with
  | error f => exact attempt_failed hclean hresult
  | ok s =>
    unfold Report.isOk at h
    rw [outcome_report_of_ok source size hresult] at h
    cases h

theorem isOk_result (r : Report) : r.result.isOk = r.isOk := by
  unfold Report.result Report.isOk
  cases r.outcome <;> rfl

/-- A pair that can be told is recorded with its result. -/
theorem records_told (total : Nat) (source : String) (size : Value) (l : Ledger) {a : Attempt}
    (ha : b.attempt l.tree source l.known size = a)
    (htell : (report source size a).isTellable = true) :
    Ledger.Records b total l ⟨a.tree, [report source size a], none⟩
      (((b.worked source size l).reported (report source size a)).ticked total) := by
  have htold : BatchRun.told ⟨a.tree, [report source size a], none⟩ = [report source size a] :=
    List.filter_cons_of_pos htell
  unfold worked
  rw [ha]
  constructor
  case tree => rfl
  case entries =>
    rw [BatchRun.entries_singleton]
    rfl
  case calls =>
    rw [BatchRun.calls_singleton]
    rfl
  case results =>
    rw [htold]
    exact List.map_append
  case messages =>
    rw [htold]
    show l.messages ++ (report source size a).message?.toList =
      l.messages ++ [report source size a].filterMap Report.message?
    rw [List.filterMap_cons]
    cases (report source size a).message? <;> rfl
  case done => rfl
  case ticks => rfl
  case unspoilt =>
    intro hclean made hl
    refine hl.handOut rfl ?_
    rw [isOk_result, ← ha]
    exact tree_of_failed hclean

/-- A pair that cannot be told is counted nevertheless. -/
theorem records_untold (total : Nat) (source : String) (size : Value) (l : Ledger) {a : Attempt}
    (ha : b.attempt l.tree source l.known size = a)
    (htell : ¬(report source size a).isTellable = true) :
    Ledger.Records b total l ⟨a.tree, [report source size a], some (.fault .numberTooLong)⟩
      ((b.worked source size l).ticked total) := by
  have htold : BatchRun.told ⟨a.tree, [report source size a], some (.fault .numberTooLong)⟩ = [] :=
    List.filter_cons_of_neg htell
  have htree : b.FailsClean → a.tree = l.tree := by
    intro hclean
    rw [← ha] at htell ⊢
    exact tree_of_failed hclean (Report.isTellable_eq_false_iff.1 (Bool.eq_false_iff.2 htell)).1
  unfold worked
  rw [ha]
  constructor
  case tree => rfl
  case entries =>
    rw [BatchRun.entries_singleton]
    rfl
  case calls =>
    rw [BatchRun.calls_singleton]
    rfl
  case results =>
    rw [htold]
    exact (List.append_nil _).symm
  case messages =>
    rw [htold]
    exact (List.append_nil _).symm
  case done => rfl
  case ticks => rfl
  case unspoilt => exact fun hclean made hl => hl.of_eq rfl (htree hclean)

/-! ## The loop -/

/-- How a part of the loop ends. -/
def ending : Option Failure → Ledger → EStateM.Result Failure Ledger Unit
  | none, l => .ok () l
  | some f, l => .error f l

theorem sizes_records (total : Nat) (source : String) (sizes : List Value) (l : Ledger) :
    ∃ l', Ledger.Records b total l (b.runSizes source l.tree l.known sizes) l' ∧
      sizes.forM (b.settle total source) l =
        ending (b.runSizes source l.tree l.known sizes).failure l' := by
  induction sizes generalizing l with
  | nil => exact ⟨l, .refl b total l none, rfl⟩
  | cons size rest ih =>
    have hsettle := settle_eq b total source size l
    generalize ha : b.attempt l.tree source l.known size = a at hsettle
    rw [runSizes_cons, ha]
    show ∃ l', _ ∧ (b.settle total source size >>= fun _ => rest.forM (b.settle total source)) l = _
    by_cases htell : (report source size a).isTellable = true
    · rw [if_pos htell] at hsettle
      rw [if_pos htell, bind_ok _ hsettle]
      obtain ⟨l', hrecords, hrest⟩ := ih (((b.worked source size l).reported
        (report source size a)).ticked total)
      have htree : (((b.worked source size l).reported (report source size a)).ticked total).tree =
          a.tree := congrArg Attempt.tree ha
      have hknown : (((b.worked source size l).reported (report source size a)).ticked total).known =
          knownAfter l.tree source l.known := rfl
      rw [htree, hknown] at hrecords hrest
      exact ⟨l', (records_told total source size l ha htell).trans hrecords, hrest⟩
    · rw [if_neg htell] at hsettle
      rw [if_neg htell, bind_error _ hsettle]
      exact ⟨_, records_untold total source size l ha htell, rfl⟩

theorem sources_records (total : Nat) (sources : List String) (l : Ledger) :
    ∃ l', Ledger.Records b total l (b.runSources l.tree sources) l' ∧
      sources.forM (b.settleSource total) l = ending (b.runSources l.tree sources).failure l' := by
  induction sources generalizing l with
  | nil => exact ⟨l, .refl b total l none, rfl⟩
  | cons source rest ih =>
    obtain ⟨m, hfirst, hends⟩ := sizes_records (b := b) total source b.options.sizes (l.knowing none)
    have hsource : b.settleSource total source l =
        ending (b.runSizes source l.tree none b.options.sizes).failure m := hends
    replace hfirst : Ledger.Records b total l (b.runSizes source l.tree none b.options.sizes) m :=
      hfirst.of_knowing
    rw [runSources_cons]
    show ∃ l', _ ∧ (b.settleSource total source >>= fun _ => rest.forM (b.settleSource total)) l = _
    cases hfailure : (b.runSizes source l.tree none b.options.sizes).failure with
    | some f =>
      rw [hfailure] at hsource
      rw [bind_error _ hsource]
      exact ⟨m, hfirst, by rw [hfailure]; rfl⟩
    | none =>
      rw [hfailure] at hsource
      rw [bind_ok _ hsource]
      obtain ⟨l', hrecords, hrest⟩ := ih m
      rw [hfirst.tree] at hrecords hrest
      exact ⟨l', hfirst.trans hrecords, hrest⟩

/-- The loop comes to its run: it starts from the tree with the folder of the batch, and what
it adds to the ledger is what the run says. -/
theorem account_records (b : Batch) (t : FileTree) (sources : List String) :
    Ledger.Records b (b.total sources) { tree := (t.makeFolders b.folder).1 } (b.run t sources)
        (b.account t sources).1 ∧
      (b.account t sources).2 = (b.run t sources).failure := by
  unfold account loop
  rcases hmade : t.makeFolders b.folder with ⟨made, _ | f⟩
  · have hprepare : b.prepare { tree := t } = .ok () { tree := made } := by
      unfold prepare
      rw [hmade]
      rfl
    obtain ⟨l', hrecords, hends⟩ :=
      sources_records (b := b) (b.total sources) sources { tree := made }
    rw [bind_ok _ hprepare, hends, run_made hmade]
    cases hfailure : (b.runSources made sources).failure with
    | none => exact ⟨hrecords, rfl⟩
    | some f => exact ⟨hrecords, rfl⟩
  · have hprepare : b.prepare { tree := t } = .error (.fault (.file f)) { tree := made } := by
      unfold prepare
      rw [hmade]
      rfl
    rw [bind_error _ hprepare, run_unmade hmade]
    exact ⟨.refl _ _ _ _, rfl⟩

end Batch

end ImageSizing
