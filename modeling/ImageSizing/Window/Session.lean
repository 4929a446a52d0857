import ImageSizing.Window.Preview

/-!
# Sessions

A session is the window, the files that it works on, and what the program runs on: the picture
library, and the attributes that name templates can ask for.
`Session.handle` says what an event does to the window and the files: selections and fields
change the window alone, a preview shows text, and a resize runs a batch.  A dialog that is
cancelled, and a command that has nothing to do, change nothing.

An event is over before the next one begins.  The program leaves a batch to a thread of its
own while the window stays alive; here a resize is one step, from the press of the button to
the last change of the window.  What somebody does to the window during a batch is left out.
-/

namespace ImageSizing

/-- The window, the files, and what the program runs on. -/
structure Session where
  tree : FileTree
  window : Window := {}
  library : PictureLibrary := .plain
  attributes : Template.Attributes := Template.Part.attributes

instance : Inhabited Session := ⟨{ tree := {} }⟩

/-- What the user does; an empty answer to a dialog cancels it. -/
inductive Event where
  | chooseFiles (paths : List String)
  | chooseFolder (path : String)
  | chooseOutput (path : String)
  | preview
  | resize
  | setSizes (text : String)
  | setFunction (name : String)
  | setNameTemplate (template : String)
  | setFormatChoice (choice : String)
  | setOverwrite (overwrite : Bool)
  | moveQuality (position : Value)

/-- The session after an event, the notices shown, and the failure of the command, if it
failed. -/
structure Response where
  session : Session
  notices : List Notice := []
  failure : Option Failure := none

namespace Session

def engine (s : Session) : Engine := { attributes := s.attributes }

def withWindow (s : Session) (w : Window) : Session := { s with window := w }

/-- The session after changes that were put off. -/
def settle (s : Session) (changes : List Later) : Session :=
  s.withWindow (s.window.applyAll changes)

/-! ## Selections -/

/-- Selects files in the place of a folder. -/
def chooseFiles (s : Session) (paths : List String) : Session :=
  if paths.isEmpty then s
  else s.withWindow { s.window with
    files := paths
    folder := none
    inputLabel := Numeral.text paths.length ++ " files selected" }

/-- The label of a folder with a number of pictures. -/
def folderLabel (pictures : Nat) : String :=
  "Folder selected (" ++ Numeral.text pictures ++ " images)"

/-- Selects a folder in the place of files; the label stays where the folder cannot be read. -/
def chooseFolder (s : Session) (path : String) : Response :=
  if path.isEmpty then ⟨s, [], none⟩
  else
    let chosen := { s.window with files := [], folder := some path }
    match s.tree.listImages path with
    | .ok pictures => ⟨s.withWindow { chosen with inputLabel := folderLabel pictures.length }, [], none⟩
    | .error f => ⟨s.withWindow chosen, [], some (.fault (.file f))⟩

def chooseOutput (s : Session) (path : String) : Session :=
  if path.isEmpty then s
  else s.withWindow { s.window with outputFolder := some path, outputLabel := path }

/-- The quality at a position of the slider; the fraction of the position is cut off. -/
def qualityAt (position : Value) : Except Fault Int := do
  (Number.truncate (← position.toBinary64)).mapError .arithmetic

def moveQuality (s : Session) (position : Value) : Response :=
  match qualityAt position with
  | .ok q => ⟨s.withWindow { s.window with quality := q, qualityLabel := Numeral.text q }, [], none⟩
  | .error f => ⟨s, [], some (.fault f)⟩

/-! ## Previews -/

def previewDone : String := "Preview generated. Ready to resize."

/-- The window that shows the header of a preview, with a status when it was not cut short. -/
def showHeader (w : Window) (pictures : Nat) (failure : Option Failure) : Window :=
  { w with
    text := Preview.header pictures w.sizeList.length
    status := if failure.isNone then previewDone else w.status }

/-- Runs a command on the pictures to work on, if they can be listed and there is something
to do. -/
def withInputs (s : Session) (command : List String → Response) : Response :=
  match s.window.inputs s.tree with
  | .error f => ⟨s, [], some (.fault (.file f))⟩
  | .ok paths => if s.window.hasWork paths then command paths else ⟨s, [Window.nothingToDo], none⟩

def previewOf (s : Session) (paths : List String) : Response :=
  let shown := Preview.ofPictures s.tree s.engine s.window.function s.window.sizeList paths
  ⟨(s.withWindow (showHeader s.window paths.length shown.failure)).settle
    (shown.lines.map .append), [], shown.failure⟩

def preview (s : Session) : Response := s.withInputs s.previewOf

/-! ## Batches -/

/-- What a pair of a batch puts off, being the `done`th. -/
def reportChanges (done : Nat) (r : Report) : List Later :=
  r.entries.map (fun entry => .append entry.line) ++ r.message?.toList.map .append
    ++ [.progress done]

/-- What some pairs of a batch put off, `done` of them being done before. -/
def reportsChanges (done : Nat) : List Report → List Later
  | [] => []
  | r :: rest => reportChanges (done + 1) r ++ reportsChanges (done + 1) rest

def doneText (ok failed : Nat) (folder : String) : String :=
  "Done. Success: " ++ Numeral.text ok ++ ", Errors: " ++ Numeral.text failed ++ ". Output: " ++ folder

def summary (ok failed : Nat) (folder : String) : String :=
  "\nFinished.\nSuccess: " ++ Numeral.text ok ++ "\nErrors: " ++ Numeral.text failed
    ++ "\nOutput: " ++ folder

/-- What a batch puts off; one that stopped early has no status and no summary. -/
def batchChanges (folder : String) (run : BatchRun) : List Later :=
  reportsChanges 0 run.reports ++
    match run.failure with
    | some _ => []
    | none => [.status (doneText run.successes run.failures folder),
        .append (summary run.successes run.failures folder)]

/-- Runs a batch over some pictures; the command fails if the batch stops early. -/
def resizeAll (s : Session) (sources : List String) : Response :=
  let batch : Batch := ⟨s.engine, s.window.options, s.window.batchFolder sources, s.library⟩
  let run := batch.run s.tree sources
  let started := { s.window with progress := some (0, batch.total sources) }
  ⟨Session.settle { s with tree := run.tree, window := started } (batchChanges batch.folder run),
    [], run.failure⟩

def resize (s : Session) : Response := s.withInputs s.resizeAll

/-! ## Events -/

def handle (s : Session) : Event → Response
  | .chooseFiles paths => ⟨s.chooseFiles paths, [], none⟩
  | .chooseFolder path => s.chooseFolder path
  | .chooseOutput path => ⟨s.chooseOutput path, [], none⟩
  | .preview => s.preview
  | .resize => s.resize
  | .setSizes text => ⟨s.withWindow { s.window with sizes := text }, [], none⟩
  | .setFunction name => ⟨s.withWindow { s.window with function := name }, [], none⟩
  | .setNameTemplate template =>
    ⟨s.withWindow { s.window with nameTemplate := template }, [], none⟩
  | .setFormatChoice choice => ⟨s.withWindow { s.window with formatChoice := choice }, [], none⟩
  | .setOverwrite overwrite => ⟨s.withWindow { s.window with overwrite := overwrite }, [], none⟩
  | .moveQuality position => s.moveQuality position

/-- The sessions that events lead to from the start. -/
inductive Reachable : Session → Prop where
  | start (tree : FileTree) (library : PictureLibrary) (attributes : Template.Attributes) :
      Reachable { tree, library, attributes }
  | step {s : Session} (event : Event) : Reachable s → Reachable (s.handle event).session

end Session

end ImageSizing
