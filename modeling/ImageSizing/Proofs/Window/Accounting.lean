import ImageSizing.Proofs.Batch.NoOverwrite
import ImageSizing.Proofs.Window.Agreement

/-!
# What the window tells of a batch

While a batch runs, the window is told of every pair: its lines are added to the text, and the
progress moves on by one.  At the end the status and a summary give the counts.  All of this
agrees (`resize_accounts`): the progress is full, the counts add up to the number of pairs, there
is one line in the text for each pair that failed, and where nothing may be overwritten one new
file in the tree for each pair that succeeded.
-/

namespace ImageSizing

/-- Why a pair failed; empty text if it did not. -/
def Report.reason (r : Report) : String :=
  match r.outcome with
  | .ok _ => ""
  | .error f => f.message

/-- The line of a pair that failed. -/
def Report.complaint (r : Report) : String :=
  "[Error] " ++ Path.baseName r.source ++ " @ " ++ r.size.quoted ++ " -> " ++ r.reason

theorem Report.isOk_of_ok {r : Report} {s : Saved} (h : r.outcome = .ok s) : r.isOk = true := by
  unfold isOk
  rw [h]

theorem Report.isOk_of_error {r : Report} {f : Failure} (h : r.outcome = .error f) :
    r.isOk = false := by
  unfold isOk
  rw [h]

theorem Report.message?_of_ok {r : Report} {s : Saved} (h : r.outcome = .ok s) :
    r.message? = none := by
  unfold message?
  rw [h]

theorem Report.message?_eq_complaint {r : Report} {f : Failure} (h : r.outcome = .error f) :
    r.message? = some r.complaint := by
  unfold message? complaint reason
  rw [h]

namespace BatchRun

theorem successes_add_failures (run : BatchRun) :
    run.successes + run.failures = run.reports.length := by
  unfold successes failures
  rw [List.length_eq_countP_add_countP Report.isOk (l := run.reports)]
  simp

/-- The messages are the complaints about the pairs that failed. -/
theorem messages_eq (run : BatchRun) :
    run.messages = (run.reports.filter fun r => !r.isOk).map Report.complaint := by
  unfold messages
  induction run.reports with
  | nil => rfl
  | cons r rest ih =>
    cases houtcome : r.outcome with
    | ok s =>
      rw [List.filterMap_cons_none (Report.message?_of_ok houtcome), ih,
        List.filter_cons_of_neg (by rw [Report.isOk_of_ok houtcome]; decide)]
    | error f =>
      rw [List.filterMap_cons_some (Report.message?_eq_complaint houtcome), ih,
        List.filter_cons_of_pos (by rw [Report.isOk_of_error houtcome]; rfl), List.map_cons]

theorem length_messages (run : BatchRun) : run.messages.length = run.failures := by
  rw [messages_eq, List.length_map, ← List.countP_eq_length_filter]
  rfl

theorem length_saved (run : BatchRun) : run.saved.length = run.successes := by
  unfold saved successes
  induction run.reports with
  | nil => rfl
  | cons r rest ih =>
    cases houtcome : r.outcome with
    | ok s =>
      rw [List.filterMap_cons_some (Report.saved?_of_ok houtcome), List.length_cons, ih,
        List.countP_cons_of_pos (Report.isOk_of_ok houtcome)]
    | error f =>
      rw [List.filterMap_cons_none (Report.saved?_of_error houtcome), ih,
        List.countP_cons_of_neg (by rw [Report.isOk_of_error houtcome]; decide)]

end BatchRun

namespace Window

theorem applyAll_append (w : Window) (changes later : List Later) :
    w.applyAll (changes ++ later) = (w.applyAll changes).applyAll later :=
  List.foldl_append

/-- The last of the changes after a batch are its status and its summary. -/
theorem applyAll_ended (w : Window) (status summary : String) :
    (w.applyAll [.status status, .append summary]).progress = w.progress ∧
      (w.applyAll [.status status, .append summary]).status = status :=
  ⟨rfl, rfl⟩

/-- Lines of text leave the progress alone. -/
theorem progress_applyAll_append (w : Window) (lines : List String) :
    (w.applyAll (lines.map .append)).progress = w.progress := by
  induction lines generalizing w with
  | nil => rfl
  | cons line rest ih => exact ih (w.apply (.append line))

/-- A pair moves the progress to its number. -/
theorem progress_reportChanges {w : Window} {p : Nat × Nat} (h : w.progress = some p) (done : Nat)
    (r : Report) : (w.applyAll (Session.reportChanges done r)).progress = some (done, p.2) := by
  have hlog : r.entries.map (fun entry => Later.append entry.line) =
      (r.entries.map LogEntry.line).map Later.append := by rw [List.map_map]; rfl
  unfold Session.reportChanges
  rw [applyAll_append, applyAll_append, hlog]
  show ((Window.applyAll _ _).progress.map fun q => (done, q.2)) = _
  rw [progress_applyAll_append, progress_applyAll_append, h]
  rfl

/-- Some pairs move the progress on by their number. -/
theorem progress_reportsChanges {w : Window} {done total : Nat} (h : w.progress = some (done, total))
    (rs : List Report) :
    (w.applyAll (Session.reportsChanges done rs)).progress = some (done + rs.length, total) := by
  induction rs generalizing w done with
  | nil => exact h
  | cons r rest ih =>
    unfold Session.reportsChanges
    rw [applyAll_append, ih (progress_reportChanges h (done + 1) r), List.length_cons,
      Nat.add_right_comm, Nat.add_assoc]

end Window

namespace Session

variable {s : Session} {paths : List String}

/-- A resize that runs to its end leaves the progress at the number of its pairs, and the counts in
the status. -/
theorem shown_resize (hinputs : s.window.inputs s.tree = .ok paths)
    (hwork : s.window.hasWork paths = true) (hended : (s.batchRun paths).failure = none) :
    s.resize.session.window.progress =
        some ((s.batchRun paths).reports.length, (s.batch paths).total paths) ∧
      s.resize.session.window.status = doneText (s.batchRun paths).successes
        (s.batchRun paths).failures (s.window.batchFolder paths) := by
  have hstarted := Window.progress_reportsChanges
    (w := { s.window with progress := some (0, (s.batch paths).total paths) }) rfl
    (s.batchRun paths).reports
  rw [Nat.zero_add] at hstarted
  have hwindow : s.resize.session.window =
      (({ s.window with progress := some (0, (s.batch paths).total paths) } : Window).applyAll
        (reportsChanges 0 (s.batchRun paths).reports)).applyAll
        [.status (doneText (s.batchRun paths).successes (s.batchRun paths).failures
            (s.window.batchFolder paths)),
          .append (summary (s.batchRun paths).successes (s.batchRun paths).failures
            (s.window.batchFolder paths))] := by
    unfold resize
    rw [withInputs_of_work hinputs hwork, ← Window.applyAll_append]
    show Window.applyAll _ (batchChanges (s.window.batchFolder paths) (s.batchRun paths)) = _
    unfold batchChanges
    rw [hended]
    rfl
  obtain ⟨hprogress, hstatus⟩ := Window.applyAll_ended _ _ _
  rw [hwindow]
  exact ⟨hprogress.trans hstarted, hstatus⟩

theorem total_batch (s : Session) (paths : List String) :
    (s.batch paths).total paths = paths.length * s.window.sizeList.length :=
  congrArg (paths.length * ·) (List.length_map _)

/-- Where nothing may be overwritten, a resize only adds files: one for each success, each at a
location of its own where nothing was. -/
theorem files_resize (hinputs : s.window.inputs s.tree = .ok paths)
    (hwork : s.window.hasWork paths = true) (hoverwrite : s.window.overwrite = false)
    (hclean : s.library.LeavesNothingNew) : ∃ new : List (Location × Entry),
      s.resize.session.tree.files = s.tree.files ++ new ∧
      new.length = (s.batchRun paths).successes ∧
      (new.map Prod.fst).Nodup ∧ ∀ e ∈ new, s.tree.at? e.1 = none := by
  obtain ⟨htree, -⟩ := resize_of_work hinputs hwork
  obtain ⟨written, hsaved, hwrote⟩ :=
    Batch.run_wrote (b := s.batch paths) hoverwrite hclean s.tree paths
  refine ⟨written.map Written.entry, ?_, ?_, ?_, ?_⟩
  · rw [htree]
    exact hwrote.files
  · have hcount : (s.batchRun paths).saved.length = (written.map Written.saved).length :=
      congrArg List.length hsaved
    rw [List.length_map, ← BatchRun.length_saved, hcount, List.length_map]
  · rw [List.map_map]
    exact hwrote.locations_nodup
  · intro e he
    obtain ⟨w, hw, rfl⟩ := List.mem_map.1 he
    exact hwrote.location_free hw

/-- A resize whose folder can be made tells of every pair of a picture and a size.  The progress is at
their number, and so is the sum of the counts in the status and the summary.  The text has gained the
lines of the pairs in their order, what the engine logged and the complaint if the pair failed, and
then the summary; so there are as many complaints as the status counts errors.  Where nothing may be
overwritten, and a failed save leaves nothing new, the tree has gained as many files as the status
counts successes, at places where nothing was. -/
theorem resize_accounts (s : Session) {paths : List String}
    (hinputs : s.window.inputs s.tree = .ok paths) (hwork : s.window.hasWork paths = true)
    (hfolder : (s.tree.makeFolders (s.window.batchFolder paths)).2 = none) :
    let run := s.batchRun paths
    let folder := s.window.batchFolder paths
    let pairs := paths.length * s.window.sizeList.length
    s.resize.failure = none ∧
    s.resize.session.window.progress = some (pairs, pairs) ∧
    s.resize.session.window.status = doneText run.successes run.failures folder ∧
    run.successes + run.failures = pairs ∧
    run.reports.map Report.pair =
      paths.flatMap (fun path => s.window.sizeList.map fun size => (path, .str size)) ∧
    s.resize.session.window.text = s.window.text ++ Window.written
      (run.reports.flatMap (fun r => r.entries.map LogEntry.line ++ r.message?.toList) ++
        [summary run.successes run.failures folder]) ∧
    run.reports.filterMap Report.message? =
      (run.reports.filter fun r => !r.isOk).map Report.complaint ∧
    (run.reports.filterMap Report.message?).length = run.failures ∧
    (s.window.overwrite = false → s.library.LeavesNothingNew → ∃ new : List (Location × Entry),
      s.resize.session.tree.files = s.tree.files ++ new ∧ new.length = run.successes ∧
      (new.map Prod.fst).Nodup ∧ ∀ e ∈ new, s.tree.at? e.1 = none) := by
  intro run folder pairs
  obtain ⟨hended, hpairs⟩ := batchRun_complete hfolder
  obtain ⟨-, hfailure⟩ := resize_of_work hinputs hwork
  obtain ⟨hprogress, hstatus⟩ := shown_resize hinputs hwork hended
  have hlength : run.reports.length = pairs := by
    have h := congrArg List.length hpairs
    rwa [List.length_map, Batch.length_pairs, total_batch] at h
  refine ⟨hfailure.trans hended, ?_, hstatus, ?_, ?_, text_resize hinputs hwork hended,
    run.messages_eq, run.length_messages, ?_⟩
  · rw [hprogress, total_batch]
    exact congrArg (fun n => some (n, pairs)) hlength
  · rw [run.successes_add_failures, hlength]
  · rw [hpairs]
    unfold Batch.pairs
    refine congrArg (paths.flatMap ·) (funext fun path => ?_)
    exact List.map_map
  · intro hoverwrite hclean
    exact files_resize hinputs hwork hoverwrite hclean

/-- Of the two sizes of the gallery one is written and the other refused. -/
theorem resize_accounts_gallery :
    (gallery false).window.hasWork ["in/a.png"] = true ∧
    ((gallery false).tree.makeFolders ((gallery false).window.batchFolder ["in/a.png"])).2 = none ∧
    (gallery false).resize.session.window.progress = some (2, 2) ∧
    (gallery false).resize.session.window.status =
      "Done. Success: 1, Errors: 1. Output: in/output" ∧
    ((gallery false).batchRun ["in/a.png"]).messages =
      ["[Error] a.png @ 'oops' -> Invalid width 'oops' specified"] ∧
    ∃ e, (gallery false).resize.session.tree.files = (gallery false).tree.files ++ [e] ∧
      (gallery false).tree.at? e.1 = none := by
  have hwork : (gallery false).window.hasWork ["in/a.png"] = true := by decide +kernel
  have hfolder : ((gallery false).tree.makeFolders
      ((gallery false).window.batchFolder ["in/a.png"])).2 = none := by decide +kernel
  have hmessages : ((gallery false).batchRun ["in/a.png"]).messages =
      ["[Error] a.png @ 'oops' -> Invalid width 'oops' specified"] := by decide +kernel
  obtain ⟨-, hprogress, hstatus, hsum, -, -, -, hcount, hfiles⟩ :=
    resize_accounts (gallery false) (gallery_inputs false) hwork hfolder
  have hfailures : ((gallery false).batchRun ["in/a.png"]).failures = 1 :=
    hcount.symm.trans (congrArg List.length hmessages)
  have hsuccesses : ((gallery false).batchRun ["in/a.png"]).successes = 1 := by
    rw [hfailures] at hsum
    exact Nat.succ.inj hsum
  obtain ⟨new, hnew, hlength, -, hfree⟩ :=
    hfiles rfl PictureLibrary.failsClean_plain.leavesNothingNew
  rw [hsuccesses] at hstatus hlength
  rw [hfailures] at hstatus
  obtain ⟨e, rfl⟩ := List.length_eq_one_iff.1 hlength
  exact ⟨hwork, hfolder, hprogress, hstatus, hmessages, e, hnew, hfree e List.mem_cons_self⟩

end Session

end ImageSizing
