import ImageSizing.Window.Session

/-!
# What commands do to the window

A preview and a resize change what the window shows, its status, its text and its progress,
and none of the fields that the user fills (`fields_preview`, `fields_resize`).  The text that
they leave is made of lines: a preview starts a new text (`text_preview`), and a resize adds
to the one that is there what its pairs logged and the failures among them (`text_resize`).
-/

namespace ImageSizing

/-- The text that a change adds to the window. -/
def Later.text? : Later → Option String
  | append text => some text
  | progress _ => none
  | status _ => none

theorem Later.texts_append (lines : List String) :
    (lines.map Later.append).filterMap Later.text? = lines := by
  rw [List.filterMap_map]
  exact List.filterMap_some

/-- What a pair of a batch adds to the text of the window. -/
def Report.lines (r : Report) : List String := r.entries.map LogEntry.line ++ r.message?.toList

namespace Window

/-- A window without what commands show in it. -/
def fields (w : Window) : Window := { w with status := "", text := "", progress := none }

theorem inputs_of_fields {w w' : Window} (h : w'.fields = w.fields) (t : FileTree) :
    w'.inputs t = w.inputs t := by
  have hfields : w'.fields.inputs t = w.fields.inputs t := by rw [h]
  exact hfields

/-- Lines of text, each ended. -/
def written (lines : List String) : String := lines.foldr (fun line rest => line ++ "\n" ++ rest) ""

theorem fields_apply (w : Window) (change : Later) : (w.apply change).fields = w.fields := by
  cases change <;> rfl

theorem fields_applyAll (w : Window) (changes : List Later) :
    (w.applyAll changes).fields = w.fields := by
  induction changes generalizing w with
  | nil => rfl
  | cons change rest ih => exact (ih (w.apply change)).trans (w.fields_apply change)

theorem text_applyAll (w : Window) (changes : List Later) :
    (w.applyAll changes).text = w.text ++ written (changes.filterMap Later.text?) := by
  induction changes generalizing w with
  | nil => exact String.append_empty.symm
  | cons change rest ih =>
    have hrest := ih (w.apply change)
    cases change with
    | append text =>
      have hfirst : (w.apply (.append text)).text = w.text ++ (text ++ "\n") :=
        String.append_assoc
      rw [hfirst, String.append_assoc] at hrest
      exact hrest
    | progress done => exact hrest
    | status text => exact hrest

end Window

namespace Session

variable {s : Session} {paths : List String}

theorem withInputs_of_work (hinputs : s.window.inputs s.tree = .ok paths)
    (hwork : s.window.hasWork paths = true) (command : List String → Response) :
    s.withInputs command = command paths := by
  unfold withInputs
  rw [hinputs]
  exact if_pos hwork

theorem withInputs_of_idle (hinputs : s.window.inputs s.tree = .ok paths)
    (hidle : s.window.hasWork paths = false) (command : List String → Response) :
    s.withInputs command = ⟨s, [Window.nothingToDo], none⟩ := by
  unfold withInputs
  rw [hinputs]
  exact if_neg (Bool.eq_false_iff.1 hidle)

theorem withInputs_of_error {f : FileFault} (hinputs : s.window.inputs s.tree = .error f)
    (command : List String → Response) :
    s.withInputs command = ⟨s, [], some (.fault (.file f))⟩ := by
  unfold withInputs
  rw [hinputs]

/-- A command on the pictures is run on those that are listed, or there is nothing to do and
it does nothing. -/
theorem withInputs_cases (s : Session) (command : List String → Response) :
    (∃ paths, s.window.inputs s.tree = .ok paths ∧ s.window.hasWork paths = true ∧
      s.withInputs command = command paths) ∨
    (∀ paths, s.window.inputs s.tree = .ok paths → s.window.hasWork paths = false) ∧
      (s.withInputs command).session = s := by
  cases hinputs : s.window.inputs s.tree with
  | error f =>
    refine .inr ⟨nofun, ?_⟩
    rw [withInputs_of_error hinputs]
  | ok paths =>
    by_cases hwork : s.window.hasWork paths = true
    · exact .inl ⟨paths, rfl, hwork, withInputs_of_work hinputs hwork command⟩
    · refine .inr ⟨?_, ?_⟩
      · intro paths' h
        cases h
        exact Bool.eq_false_iff.2 hwork
      · rw [withInputs_of_idle hinputs (Bool.eq_false_iff.2 hwork)]

/-- What a command keeps on any pictures is kept. -/
theorem withInputs_keeps {P : Session → Prop} {command : List String → Response} (hs : P s)
    (hcommand : ∀ paths, P (command paths).session) : P (s.withInputs command).session := by
  rcases s.withInputs_cases command with ⟨paths, -, -, hrun⟩ | ⟨-, hidle⟩
  · rw [hrun]
    exact hcommand paths
  · rw [hidle]
    exact hs

/-! ## Previews -/

theorem tree_preview (s : Session) : s.preview.session.tree = s.tree :=
  withInputs_keeps (P := fun s' => s'.tree = s.tree) rfl fun _ => rfl

theorem fields_preview (s : Session) : s.preview.session.window.fields = s.window.fields :=
  withInputs_keeps (P := fun s' => s'.window.fields = s.window.fields) rfl fun _ =>
    Window.fields_applyAll _ _

/-- The text of a preview is its header and its lines. -/
theorem text_preview (hinputs : s.window.inputs s.tree = .ok paths)
    (hwork : s.window.hasWork paths = true) :
    s.preview.session.window.text =
      Preview.header paths.length s.window.sizeList.length ++ Window.written
        (Preview.ofPictures s.tree s.engine s.window.function s.window.sizeList paths).lines := by
  unfold preview
  rw [withInputs_of_work hinputs hwork]
  show (Window.applyAll _ _).text = _
  rw [Window.text_applyAll, Later.texts_append]
  rfl

/-! ## Batches -/

/-- The batch that a resize runs over some pictures. -/
def batch (s : Session) (paths : List String) : Batch :=
  ⟨s.engine, s.window.options, s.window.batchFolder paths, s.library⟩

/-- What a resize of some pictures comes to. -/
def batchRun (s : Session) (paths : List String) : BatchRun := (s.batch paths).run s.tree paths

theorem resize_of_work (hinputs : s.window.inputs s.tree = .ok paths)
    (hwork : s.window.hasWork paths = true) :
    s.resize.session.tree = (s.batchRun paths).tree ∧
      s.resize.failure = (s.batchRun paths).failure := by
  unfold resize
  rw [withInputs_of_work hinputs hwork]
  exact ⟨rfl, rfl⟩

theorem fields_resize (s : Session) : s.resize.session.window.fields = s.window.fields :=
  withInputs_keeps (P := fun s' => s'.window.fields = s.window.fields) rfl fun _ =>
    Window.fields_applyAll _ _

theorem texts_reportsChanges (done : Nat) (rs : List Report) :
    (reportsChanges done rs).filterMap Later.text? = rs.flatMap Report.lines := by
  induction rs generalizing done with
  | nil => rfl
  | cons r rest ih =>
    have hlog : r.entries.map (fun entry => Later.append entry.line) =
        (r.entries.map LogEntry.line).map Later.append := by rw [List.map_map]; rfl
    unfold reportsChanges reportChanges
    rw [List.filterMap_append, ih, List.flatMap_cons, List.filterMap_append, List.filterMap_append,
      hlog, Later.texts_append, Later.texts_append]
    exact congrArg (· ++ rest.flatMap Report.lines) (List.append_nil r.lines)

/-- The text after a resize that ran to its end is the one before, what its pairs add, and a
summary. -/
theorem text_resize (hinputs : s.window.inputs s.tree = .ok paths)
    (hwork : s.window.hasWork paths = true)
    (hended : (s.batchRun paths).failure = none) :
    s.resize.session.window.text = s.window.text ++ Window.written
      ((s.batchRun paths).reports.flatMap Report.lines ++
        [summary (s.batchRun paths).successes (s.batchRun paths).failures
          (s.window.batchFolder paths)]) := by
  unfold resize
  rw [withInputs_of_work hinputs hwork]
  show (Window.applyAll _ (batchChanges (s.window.batchFolder paths) (s.batchRun paths))).text = _
  rw [Window.text_applyAll]
  unfold batchChanges
  rw [hended, List.filterMap_append, texts_reportsChanges]
  rfl

end Session

end ImageSizing
