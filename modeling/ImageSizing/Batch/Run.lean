import ImageSizing.Batch.Pair

/-!
# Batches

A batch draws every source at every size, source after source.  A pair that fails is
reported and the batch goes on with the tree as the pair left it.  The real dimension of a
source is read once, by the first of its sizes that gets that far.  A batch stops early only
when its folder cannot be made, or when a failed size has no text to report it by.
-/

namespace ImageSizing

/-- What one pair of a batch came to. -/
structure Report where
  source : String
  size : Value
  entries : List LogEntry
  calls : List RasterCall
  outcome : Except Failure Saved

namespace Report

/-- Whether the output of a pair was written. -/
def isOk (r : Report) : Bool :=
  match r.outcome with
  | .ok _ => true
  | .error _ => false

/-- The line that tells of a failed pair. -/
def message? (r : Report) : Option String :=
  match r.outcome with
  | .ok _ => none
  | .error f => some ("[Error] " ++ Path.baseName r.source ++ " @ " ++ r.size.quoted ++ " -> "
      ++ f.message)

/-- Whether the pair can be reported: it succeeded, or its size has a text. -/
def isTellable (r : Report) : Bool := r.isOk || r.size.printable

end Report

/-- A batch from some state on: the tree at its end, what its pairs came to, and why it
stopped early, if it did. -/
structure BatchRun where
  tree : FileTree
  reports : List Report
  failure : Option Failure

namespace BatchRun

def push (r : Report) (run : BatchRun) : BatchRun := { run with reports := r :: run.reports }

def append (rs : List Report) (run : BatchRun) : BatchRun :=
  { run with reports := rs ++ run.reports }

/-- The number of pairs whose outputs were written. -/
def successes (run : BatchRun) : Nat := run.reports.countP Report.isOk

/-- The number of pairs that failed. -/
def failures (run : BatchRun) : Nat := run.reports.countP fun r => !r.isOk

/-- The lines that tell of the failed pairs, in order. -/
def messages (run : BatchRun) : List String := run.reports.filterMap Report.message?

/-- The log of the engine over all pairs. -/
def entries (run : BatchRun) : List LogEntry := run.reports.flatMap Report.entries

def calls (run : BatchRun) : List RasterCall := run.reports.flatMap Report.calls

/-- The progress after each pair: the pairs done so far, and the pairs in all. -/
def progress (run : BatchRun) (total : Nat) : List (Nat × Nat) :=
  (List.range run.reports.length).map fun i => (i + 1, total)

end BatchRun

/-- What stays the same during a batch. -/
structure Batch where
  engine : Engine
  options : BatchOptions
  folder : String
  library : PictureLibrary

namespace Batch

/-- The failed saves of a batch leave the tree as it was: the library sees to it, or it leaves
nothing new and files are not written over. -/
def FailsClean (b : Batch) : Prop :=
  b.library.FailsClean ∨ (b.options.overwrite = false ∧ b.library.LeavesNothingNew)

/-- The number of pairs of a batch over some sources. -/
def total (b : Batch) (sources : List String) : Nat := sources.length * b.options.sizes.length

/-- The real dimension of a source, read unless it is known. -/
def realOf (t : FileTree) (source : String) : Option RealDimension → Except Failure RealDimension
  | some r => .ok r
  | none => t.probe source

def attempt (b : Batch) (t : FileTree) (source : String) (known : Option RealDimension)
    (size : Value) : Attempt :=
  match realOf t source known with
  | .error f => ⟨[], [], t, .error f⟩
  | .ok r => Pair.attempt b.library t b.engine b.options b.folder source size (some r)

/-- What is known of a source after a pair. -/
def knownAfter (t : FileTree) (source : String) (known : Option RealDimension) :
    Option RealDimension :=
  (realOf t source known).toOption

/-- What a pair came to. -/
def report (source : String) (size : Value) (a : Attempt) : Report :=
  ⟨source, size, a.entries, a.calls, a.result⟩

/-- Works through sizes of one source. -/
def runSizes (b : Batch) (source : String) : FileTree → Option RealDimension → List Value → BatchRun
  | t, _, [] => ⟨t, [], none⟩
  | t, known, size :: rest =>
    let a := b.attempt t source known size
    let r := report source size a
    if r.isTellable then
      (runSizes b source a.tree (knownAfter t source known) rest).push r
    else ⟨a.tree, [r], some (.fault .numberTooLong)⟩

def runSources (b : Batch) : FileTree → List String → BatchRun
  | t, [] => ⟨t, [], none⟩
  | t, source :: rest =>
    let first := b.runSizes source t none b.options.sizes
    match first.failure with
    | some _ => first
    | none => (runSources b first.tree rest).append first.reports

/-- Makes the folder of a batch and works through all sources. -/
def run (b : Batch) (t : FileTree) (sources : List String) : BatchRun :=
  match t.makeFolders b.folder with
  | (made, some f) => ⟨made, [], some (.fault (.file f))⟩
  | (made, none) => b.runSources made sources

end Batch

end ImageSizing
