import ImageSizing.Batch.Run

/-!
# The window

The state of the window: what is selected, the fields, and everything that it shows.  Some
changes are not made at once but put off until the end of the command that asks for them;
`Later` names them.
-/

namespace ImageSizing

/-- The state of the window. -/
structure Window where
  files : List String := []
  folder : Option String := none
  outputFolder : Option String := none
  inputLabel : String := "No files selected"
  outputLabel : String := "default: creates 'output' next to source"
  sizes : String := "320, 50%, 1024X768"
  function : String := "contain"
  nameTemplate : String := "\x7bname\x7d-w\x7bwidth\x7d"
  formatChoice : String := "keep"
  quality : Int := 85
  qualityLabel : String := "85"
  overwrite : Bool := false
  status : String := "Select files or a folder to begin"
  text : String := ""
  progress : Option (Nat × Nat) := none

/-- A change of the window that is put off. -/
inductive Later where
  | append (text : String)
  | progress (done : Nat)
  | status (text : String)
deriving DecidableEq

/-- A notice that the user has to confirm. -/
structure Notice where
  title : String
  text : String
deriving DecidableEq

namespace Window

/-- Makes a change that was put off. -/
def apply (w : Window) : Later → Window
  | .append text => { w with text := w.text ++ text ++ "\n" }
  | .progress done => { w with progress := w.progress.map fun p => (done, p.2) }
  | .status text => { w with status := text }

/-- Makes changes that were put off, in order. -/
def applyAll (w : Window) (changes : List Later) : Window := changes.foldl apply w

/-! ## The sizes field -/

/-- Whether a character ends an item of the sizes field. -/
def isSizeSeparator (c : Char) : Bool := c == ',' || c == ';' || c == '\n'

/-- The items of the sizes field, without blanks around them and without empty ones. -/
def parseSizes (text : String) : List String :=
  ((Text.fields isSizeSeparator text.toList).map fun cs => String.ofList (Text.stripChars cs)).filter
    fun s => !s.isEmpty

/-! ## Selection -/

def inputs (w : Window) (t : FileTree) : Except FileFault (List String) :=
  t.gatherInputs w.files w.folder

def sizeList (w : Window) : List String := parseSizes w.sizes

/-- The options that the fields stand for; an empty name template is the usual one. -/
def options (w : Window) : BatchOptions where
  sizes := w.sizeList.map .str
  function := .str w.function
  nameTemplate := if w.nameTemplate.isEmpty then "\x7bname\x7d-w\x7bwidth\x7d" else w.nameTemplate
  formatChoice := .str w.formatChoice
  quality := .int w.quality
  overwrite := w.overwrite

/-- The folder of the outputs: the chosen one, else `output` in the folder of the inputs. -/
def batchFolder (w : Window) (inputs : List String) : String :=
  match w.outputFolder with
  | some f => f
  | none =>
    if w.files.isEmpty then Path.join (w.folder.getD "") "output"
    else Path.join (Path.folderName (inputs.headD "")) "output"

/-- Whether there is something to do with pictures: a picture and a size. -/
def hasWork (w : Window) (inputs : List String) : Bool := !inputs.isEmpty && !w.sizeList.isEmpty

def nothingToDo : Notice :=
  ⟨"Nothing to do", "Please select images and enter at least one size"⟩

end Window

namespace LogEntry

/-- A line of the engine's log as the window shows it. -/
def line : LogEntry → String
  | warning t => "[Warning] " ++ t
  | error t => "[Error] " ++ t

end LogEntry

end ImageSizing
