import ImageSizing.Proofs.Binary64.Value
import ImageSizing.Proofs.Window.Commands

/-!
# What is selected

A history is what the user does with a window, and what others do to the files meanwhile.  The
window keeps no more of it than the last choices: the pictures to work on, the folder of the
outputs and the position of the slider are those of the last event that tells of them
(`latest`, `selected_after`).  A cancelled dialog tells of nothing, and neither does a command.
So files and a folder are never selected together, and the next command works on what was chosen
last, a folder being listed as it is now (`selection_after`).
-/

namespace ImageSizing

/-! ## Histories -/

/-- What happens to a session: the user does something, or others change the files. -/
inductive Happening where
  | event (event : Event)
  | files (tree : FileTree)

/-- What the user did, if it was the user. -/
def Happening.event? : Happening → Option Event
  | event e => some e
  | files _ => none

/-- The last that the events of a history tell of something. -/
def latest {α : Type} (told : Event → Option α) (history : List Happening) : Option α :=
  ((history.filterMap Happening.event?).filterMap told).getLast?

theorem latest_event {α : Type} (told : Event → Option α) (e : Event) (history : List Happening) :
    latest told (.event e :: history) = (latest told history).or (told e) := by
  have hevent : Happening.event? (.event e) = some e := rfl
  unfold latest
  rw [List.filterMap_cons_some hevent]
  cases htold : told e with
  | none => rw [List.filterMap_cons_none htold, Option.or_none]
  | some a =>
    rw [List.filterMap_cons_some htold, List.getLast?_cons]
    cases List.getLast? _ <;> rfl

/-! ## Choices -/

/-- Pictures to work on, as the user selects them. -/
inductive Selection where
  | files (paths : List String)
  | folder (path : String)

namespace Selection

/-- The files and the folder of a selection. -/
def parts : Selection → List String × Option String
  | files paths => (paths, none)
  | folder path => ([], some path)

/-- The pictures of a selection: the supported ones of some files, or those that a folder lists. -/
def inputs (t : FileTree) : Selection → Except FileFault (List String)
  | files paths => .ok (paths.filter Path.isSupported)
  | folder path => t.listImages path

end Selection

namespace Event

/-- Whether an event is a dialog that is cancelled. -/
def isCancelled : Event → Bool
  | chooseFiles paths => paths.isEmpty
  | chooseFolder path => path.isEmpty
  | chooseOutput path => path.isEmpty
  | _ => false

/-- The pictures that an event selects. -/
def selection? : Event → Option Selection
  | chooseFiles paths => if paths.isEmpty then none else some (.files paths)
  | chooseFolder path => if path.isEmpty then none else some (.folder path)
  | _ => none

def outputFolder? : Event → Option String
  | chooseOutput path => if path.isEmpty then none else some path
  | _ => none

/-- The exact value of the position, a finite double, that an event moves the slider to. -/
def position? : Event → Option ℚ
  | moveQuality position => position.toBinary64.toOption.bind Binary64.value?
  | _ => none

end Event

namespace Window

def selected (w : Window) : List String × Option String := (w.files, w.folder)

def output (w : Window) : Option String × String := (w.outputFolder, w.outputLabel)

/-- The quality and its label. -/
def encoding (w : Window) : Int × String := (w.quality, w.qualityLabel)

def outputFor (path : String) : Option String × String := (some path, path)

/-- The encoding of a window with the slider at a position. -/
def encodingAt (position : ℚ) : Int × String :=
  (Binary64.towardsZero position, Numeral.text (Binary64.towardsZero position))

theorem inputs_of_selected {w : Window} {selection : Selection} (h : w.selected = selection.parts)
    (t : FileTree) : w.inputs t = selection.inputs t := by
  obtain ⟨hfiles, hfolder⟩ := Prod.mk.inj h
  unfold inputs FileTree.gatherInputs
  rw [hfiles, hfolder]
  cases selection with
  | files paths => cases paths <;> rfl
  | folder path =>
    show (if path.isEmpty then .ok [] else t.listImages path) = t.listImages path
    split
    · rename_i hempty
      rw [String.isEmpty_iff.1 hempty]
      rfl
    · rfl

theorem hasWork_eq_true_iff {w : Window} {paths : List String} :
    w.hasWork paths = true ↔ paths ≠ [] ∧ w.sizeList ≠ [] := by
  unfold hasWork
  simp

theorem hasWork_eq_false_iff {w : Window} {paths : List String} :
    w.hasWork paths = false ↔ paths = [] ∨ w.sizeList = [] := by
  rw [← Bool.not_eq_true, hasWork_eq_true_iff, not_and_or, not_ne_iff, not_ne_iff]

end Window

namespace Session

/-- The pictures that a command works on, as they are listed now. -/
def inputs (s : Session) : Except FileFault (List String) := s.window.inputs s.tree

/-- Files and a folder are never selected together. -/
def HasOneSelection (w : Window) : Prop := w.folder = none ∨ w.files = []

def next (s : Session) : Happening → Session
  | .event e => (s.handle e).session
  | .files tree => { s with tree := tree }

def after (s : Session) (history : List Happening) : Session := history.foldl next s

theorem Reachable.exists_history {s : Session} (hs : Reachable s) :
    ∃ (start : Session) (history : List Happening), start.window = {} ∧ s = start.after history := by
  induction hs with
  | start tree library attributes => exact ⟨{ tree, library, attributes }, [], rfl, rfl⟩
  | step event _ ih =>
    obtain ⟨start, history, hstart, rfl⟩ := ih
    refine ⟨start, history ++ [.event event], hstart, ?_⟩
    unfold after
    rw [List.foldl_append]
    rfl

/-! ## One event -/

theorem qualityAt_toOption (position : Value) :
    (qualityAt position).toOption =
      (Event.moveQuality position).position?.map Binary64.towardsZero := by
  unfold qualityAt Event.position?
  dsimp only
  cases position.toBinary64 with
  | error f => rfl
  | ok x =>
    show ((Number.truncate x).mapError Fault.arithmetic).toOption =
      x.value?.map Binary64.towardsZero
    rw [← Binary64.truncate?_eq]
    unfold Number.truncate
    cases x.truncate? <;> rfl

/-- The slider shows its position, and stays as it is where that is no number. -/
theorem encoding_moveQuality (s : Session) (position : Value) :
    (s.moveQuality position).session.window.encoding =
      ((Event.moveQuality position).position?.map Window.encodingAt).getD s.window.encoding := by
  have hread := qualityAt_toOption position
  unfold moveQuality
  cases hquality : qualityAt position with
  | ok q =>
    rw [hquality] at hread
    obtain ⟨p, hp, rfl⟩ := Option.map_eq_some_iff.1 hread.symm
    rw [hp]
    rfl
  | error f =>
    rw [hquality] at hread
    rw [Option.map_eq_none_iff.1 hread.symm]
    rfl

/-- Commands keep what is chosen. -/
theorem chosen_of_fields {w w' : Window} (h : w'.fields = w.fields) :
    w'.selected = w.selected ∧ w'.output = w.output ∧ w'.encoding = w.encoding :=
  ⟨(congrArg Window.selected h :), (congrArg Window.output h :), (congrArg Window.encoding h :)⟩

/-- Of what is chosen an event changes the part that it tells of, and keeps the others. -/
theorem chosen_handle (s : Session) (e : Event) :
    (s.handle e).session.window.selected =
        (e.selection?.map Selection.parts).getD s.window.selected ∧
      (s.handle e).session.window.output =
        (e.outputFolder?.map Window.outputFor).getD s.window.output ∧
      (s.handle e).session.window.encoding =
        (e.position?.map Window.encodingAt).getD s.window.encoding := by
  cases e with
  | chooseFiles paths =>
    unfold handle chooseFiles Event.selection?
    dsimp only
    split <;> exact ⟨rfl, rfl, rfl⟩
  | chooseFolder path =>
    unfold handle chooseFolder Event.selection?
    dsimp only
    split
    · exact ⟨rfl, rfl, rfl⟩
    · split <;> exact ⟨rfl, rfl, rfl⟩
  | chooseOutput path =>
    unfold handle chooseOutput Event.outputFolder?
    dsimp only
    split <;> exact ⟨rfl, rfl, rfl⟩
  | preview => exact chosen_of_fields s.fields_preview
  | resize => exact chosen_of_fields s.fields_resize
  | moveQuality position =>
    refine ⟨?_, ?_, s.encoding_moveQuality position⟩
    all_goals
      unfold handle moveQuality
      dsimp only
      split <;> rfl
  | _ => exact ⟨rfl, rfl, rfl⟩

theorem handle_of_isCancelled (s : Session) {e : Event} (h : e.isCancelled = true) :
    s.handle e = ⟨s, [], none⟩ := by
  cases e with
  | chooseFiles paths =>
    have hkept : s.chooseFiles paths = s := if_pos h
    exact congrArg (Response.mk · [] none) hkept
  | chooseFolder path => exact if_pos h
  | chooseOutput path =>
    have hkept : s.chooseOutput path = s := if_pos h
    exact congrArg (Response.mk · [] none) hkept
  | _ => cases h

/-! ## Histories -/

/-- What every event keeps, unless it tells of something else in its place, is after a history what
the last of the events told, or what it was in the beginning. -/
theorem view_after {α β : Type} {view : Window → β} {told : Event → Option α} {shown : α → β}
    (hstep : ∀ (s : Session) (e : Event),
      view (s.handle e).session.window = ((told e).map shown).getD (view s.window))
    (s : Session) (history : List Happening) :
    view (s.after history).window = ((latest told history).map shown).getD (view s.window) := by
  induction history generalizing s with
  | nil => rfl
  | cons happening rest ih =>
    cases happening with
    | files tree => exact ih { s with tree := tree }
    | event e =>
      rw [latest_event, Option.map_or, Option.getD_or, ← hstep s e]
      exact ih (s.handle e).session

theorem selected_after (s : Session) (history : List Happening) :
    (s.after history).window.selected =
      ((latest Event.selection? history).map Selection.parts).getD s.window.selected :=
  view_after (fun s e => (s.chosen_handle e).1) s history

theorem output_after (s : Session) (history : List Happening) :
    (s.after history).window.output =
      ((latest Event.outputFolder? history).map Window.outputFor).getD s.window.output :=
  view_after (fun s e => (s.chosen_handle e).2.1) s history

theorem encoding_after (s : Session) (history : List Happening) :
    (s.after history).window.encoding =
      ((latest Event.position? history).map Window.encodingAt).getD s.window.encoding :=
  view_after (fun s e => (s.chosen_handle e).2.2) s history

section

variable {start : Session} (hstart : start.window = {}) (history : List Happening)

include hstart

/-- A window has nothing selected, or what the last selection was. -/
theorem selected_cases :
    (latest Event.selection? history = none ∧
        (start.after history).window.selected = ([], none)) ∨
      ∃ selection, latest Event.selection? history = some selection ∧
        (start.after history).window.selected = selection.parts := by
  rw [selected_after, hstart]
  cases latest Event.selection? history with
  | none => exact .inl ⟨rfl, rfl⟩
  | some selection => exact .inr ⟨selection, rfl, rfl⟩

theorem hasOneSelection_after : HasOneSelection (start.after history).window := by
  rcases selected_cases hstart history with ⟨-, hnone⟩ | ⟨selection, -, hselected⟩
  · exact .inl (congrArg Prod.snd hnone)
  · cases selection with
    | files paths => exact .inl (congrArg Prod.snd hselected)
    | folder path => exact .inr (congrArg Prod.fst hselected)

theorem inputs_after :
    (start.after history).inputs =
      ((latest Event.selection? history).map (Selection.inputs
        (start.after history).tree)).getD (.ok []) := by
  unfold inputs
  rcases selected_cases hstart history with ⟨hlatest, hnone⟩ | ⟨selection, hlatest, hselected⟩
  · have hfiles : (start.after history).window.selected = (Selection.files []).parts := hnone
    rw [hlatest, Window.inputs_of_selected hfiles]
    rfl
  · rw [hlatest, Window.inputs_of_selected hselected]
    rfl

end

theorem Reachable.hasOneSelection {s : Session} (hs : Reachable s) : HasOneSelection s.window := by
  obtain ⟨start, history, hstart, rfl⟩ := hs.exists_history
  exact hasOneSelection_after hstart history

/-- After any history, and whatever others did to the files meanwhile: files and a folder are not
both selected; the next command works on the pictures of the last selection, a folder being listed
as it is now, and does nothing but say so if there is nothing to do; so does a dialog that is
cancelled; the folder of the outputs is the last one chosen, and the label shows it; and the
quality is the last position of the slider without its fractional part, and its label shows it. -/
theorem selection_after (tree : FileTree) (library : PictureLibrary)
    (attributes : Template.Attributes) (history : List Happening) :
    let s := ({ tree, library, attributes } : Session).after history
    (s.window.files = [] ∨ s.window.folder = none) ∧
    s.inputs = ((latest Event.selection? history).map (Selection.inputs s.tree)).getD (.ok []) ∧
    (∀ paths, s.inputs = .ok paths → paths ≠ [] → s.window.sizeList ≠ [] →
      s.handle .preview = s.previewOf paths ∧ s.handle .resize = s.resizeAll paths) ∧
    (∀ paths, s.inputs = .ok paths → paths = [] ∨ s.window.sizeList = [] →
      s.handle .preview = ⟨s, [Window.nothingToDo], none⟩ ∧
      s.handle .resize = ⟨s, [Window.nothingToDo], none⟩) ∧
    (∀ f, s.inputs = .error f →
      s.handle .preview = ⟨s, [], some (.fault (.file f))⟩ ∧
      s.handle .resize = ⟨s, [], some (.fault (.file f))⟩) ∧
    (∀ e : Event, e.isCancelled = true → s.handle e = ⟨s, [], none⟩) ∧
    s.window.outputFolder = latest Event.outputFolder? history ∧
    s.window.outputLabel = (latest Event.outputFolder? history).getD
      "default: creates 'output' next to source" ∧
    s.window.quality = ((latest Event.position? history).map Binary64.towardsZero).getD 85 ∧
    s.window.qualityLabel = Numeral.text s.window.quality := by
  intro s
  have houtput : s.window.output = _ := output_after { tree, library, attributes } history
  have hencoding : s.window.encoding = _ := encoding_after { tree, library, attributes } history
  refine ⟨(hasOneSelection_after rfl history).symm, inputs_after rfl history, ?_, ?_, ?_,
    fun e => s.handle_of_isCancelled, ?_, ?_, ?_, ?_⟩
  · intro paths hinputs hpaths hsizes
    have hwork := Window.hasWork_eq_true_iff.2 ⟨hpaths, hsizes⟩
    exact ⟨withInputs_of_work hinputs hwork _, withInputs_of_work hinputs hwork _⟩
  · intro paths hinputs hnothing
    have hidle := Window.hasWork_eq_false_iff.2 hnothing
    exact ⟨withInputs_of_idle hinputs hidle _, withInputs_of_idle hinputs hidle _⟩
  · intro f hinputs
    exact ⟨withInputs_of_error hinputs _, withInputs_of_error hinputs _⟩
  · refine (congrArg Prod.fst houtput).trans ?_
    cases latest Event.outputFolder? history <;> rfl
  · refine (congrArg Prod.snd houtput).trans ?_
    cases latest Event.outputFolder? history <;> rfl
  · refine (congrArg Prod.fst hencoding).trans ?_
    cases latest Event.position? history <;> rfl
  · obtain ⟨hquality, hlabel⟩ := Prod.mk.inj hencoding
    rw [hquality, hlabel]
    cases latest Event.position? history with
    | none =>
      show "85" = Numeral.text 85
      decide
    | some position => rfl

/-- A folder is selected, the slider moved, and all files are removed; then two files are selected
in the place of the folder, and two dialogs cancelled. -/
def outing : List Happening :=
  [.event (.chooseFolder "in"), .event (.moveQuality (.float (.ofDecimal false 509 (-1)))),
    .files {}, .event (.chooseOutput "out"), .event (.chooseFiles ["a.PNG", "notes.txt"]),
    .event (.chooseFolder ""), .event (.chooseOutput "")]

/-- In the end one picture is worked on; it was the slider at 50.9 that set the quality. -/
theorem selection_after_outing :
    let s := ({ tree := {} } : Session).after outing
    s.inputs = .ok ["a.PNG"] ∧ s.handle .resize = s.resizeAll ["a.PNG"] ∧
    s.handle (.chooseFiles []) = ⟨s, [], none⟩ ∧
    s.window.outputFolder = some "out" ∧ s.window.outputLabel = "out" ∧
    s.window.quality = 50 ∧ s.window.qualityLabel = Numeral.text 50 := by
  intro s
  obtain ⟨-, hinputs, hwork, -, -, hcancel, hfolder, hlabel, hquality, hshown⟩ :=
    selection_after {} .plain Template.Part.attributes outing
  have hpictures : s.inputs = .ok ["a.PNG"] := by
    rw [hinputs]
    decide +kernel
  have hfifty : s.window.quality = 50 := by
    rw [hquality]
    decide +kernel
  refine ⟨hpictures, ?_, hcancel _ rfl, ?_, ?_, hfifty, ?_⟩
  · exact (hwork _ hpictures (by decide) (by decide +kernel)).2
  · rw [hfolder]
    rfl
  · rw [hlabel]
    rfl
  · rw [hshown, hfifty]

end Session

end ImageSizing
