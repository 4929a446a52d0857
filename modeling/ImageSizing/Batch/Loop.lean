import ImageSizing.Batch.Run

/-!
# The loop of a batch

A batch as a program that hands out one result for each pair.  It works on a `Ledger`: the
tree, what the engine logged and the picture library was called for, and what the caller got
to see.  Whatever fails ends the part of the program that it happens in and leaves the
ledger as it is at that moment, for nothing is undone.  `Batch.settle` catches the failure
of a pair and hands it out as a result; making up the message is the one part of this that
can fail itself.
-/

namespace ImageSizing

/-- The result that is handed out for one pair. -/
structure PairResult where
  source : String
  destination : Option String
  isOk : Bool
  error : Option String
  size : Value
  inSize : Option (Number × Number)
  outSize : Option PixelSize

namespace PairResult

/-- The result of a pair whose output was written. -/
def ofSaved (source : String) (size : Value) (s : Saved) : PairResult :=
  { source, size, isOk := true, error := none, destination := some s.destination,
    inSize := some (s.real.width, s.real.height), outSize := some s.target }

/-- The result of a pair that failed. -/
def ofFailure (source : String) (size : Value) (f : Failure) : PairResult :=
  { source, size, isOk := false, error := some f.message, destination := none, inSize := none,
    outSize := none }

end PairResult

/-- A result, and the tree as the caller finds it when it gets the result. -/
structure Handout where
  result : PairResult
  tree : FileTree

/-- What has come of a batch so far. -/
structure Ledger where
  tree : FileTree
  entries : List LogEntry := []
  calls : List RasterCall := []
  handouts : List Handout := []
  messages : List String := []
  ticks : List (Nat × Nat) := []
  done : Nat := 0
  known : Option RealDimension := none

namespace Ledger

def logged (l : Ledger) (entries : List LogEntry) : Ledger :=
  { l with entries := l.entries ++ entries }

def called (l : Ledger) (calls : List RasterCall) : Ledger := { l with calls := l.calls ++ calls }

def withTree (l : Ledger) (t : FileTree) : Ledger := { l with tree := t }

/-- The ledger where something is known of the source at hand. -/
def knowing (l : Ledger) (known : Option RealDimension) : Ledger := { l with known }

def handedOut (l : Ledger) (r : PairResult) : Ledger :=
  { l with handouts := l.handouts ++ [⟨r, l.tree⟩] }

def told (l : Ledger) (message : String) : Ledger := { l with messages := l.messages ++ [message] }

/-- The ledger with one more pair counted and the progress reported. -/
def ticked (l : Ledger) (total : Nat) : Ledger :=
  { l with done := l.done + 1, ticks := l.ticks ++ [(l.done + 1, total)] }

end Ledger

/-- A part of the program; what fails keeps the ledger. -/
abbrev Work := EStateM Failure Ledger

namespace Work

/-- Computes something from the tree, with a log. -/
def compute {α : Type} (f : FileTree → Logged α) : Work α := fun l =>
  match (f l.tree).result with
  | .ok a => .ok a (l.logged (f l.tree).entries)
  | .error e => .error e (l.logged (f l.tree).entries)

/-- Computes something from the tree that writes no log. -/
def quietly {α : Type} (f : FileTree → Except Failure α) : Work α := fun l =>
  match f l.tree with
  | .ok a => .ok a l
  | .error e => .error e l

/-- Has the picture library work on a picture. -/
def render (r : Rendering) : Work Picture := do
  modify (·.called r.calls)
  quietly fun _ => r.result.mapError fun f => .fault (.file (.library f))

/-- Saves a picture; what a failed save leaves stays there. -/
def save (library : PictureLibrary) (path : String) (format : PictureFormat)
    (quality : Option Int) (p : Picture) : Work Unit := do
  modify (·.called [.save path format quality])
  let saved := (← get).tree.savePicture library path p format quality
  modify (·.withTree saved.1)
  quietly fun _ => Drawing.outcome saved.2

end Work

namespace Batch

open Work

/-- Opens a source, brings it to its size, and saves it. -/
def rasterize (b : Batch) (source : String) (p : Plan) : Work Unit := do
  let picture ← quietly fun t => (t.openPicture source).mapError fun f => .fault (.file f)
  let scaled ← render (picture.scaled b.library p.target)
  let ready ← render (scaled.converted b.library p.format)
  let quality ← quietly fun _ => (Drawing.qualityFor p.format b.options.quality).mapError .fault
  save b.library p.destination p.format quality ready

/-- Draws one source of a known real dimension at one size. -/
def resize (b : Batch) (source : String) (size : Value) (real : RealDimension) :
    Work PairResult := do
  let p ← compute fun t => Pair.plan t b.engine b.options b.folder source size (some real)
  b.rasterize source p
  return .ofSaved source size ⟨p.destination, p.real, p.target⟩

/-- The real dimension of the source at hand, which is kept once it is read. -/
def realDimension (source : String) : Work RealDimension := do
  match (← get).known with
  | some real => return real
  | none =>
    let real ← quietly fun t => t.probe source
    modify (·.knowing (some real))
    return real

/-- Sends the message of a failed pair and hands out its result. -/
def reportFailure (source : String) (size : Value) (f : Failure) : Work Unit := do
  let shown ← quietly fun _ => size.quoted?.mapError .fault
  modify (·.told ("[Error] " ++ Path.baseName source ++ " @ " ++ shown ++ " -> " ++ f.message))
  modify (·.handedOut (.ofFailure source size f))

/-- Works on one pair. -/
def settle (b : Batch) (total : Nat) (source : String) (size : Value) : Work Unit := do
  try
    let result ← b.resize source size (← realDimension source)
    modify (·.handedOut result)
  catch f => reportFailure source size f
  finally modify (·.ticked total)

/-- Works on all pairs of one source. -/
def settleSource (b : Batch) (total : Nat) (source : String) : Work Unit := do
  modify (·.knowing none)
  b.options.sizes.forM (b.settle total source)

def prepare (b : Batch) : Work Unit := fun l =>
  match l.tree.makeFolders b.folder with
  | (made, none) => .ok () (l.withTree made)
  | (made, some f) => .error (.fault (.file f)) (l.withTree made)

def loop (b : Batch) (sources : List String) : Work Unit := do
  b.prepare
  sources.forM (b.settleSource (b.total sources))

/-- The ledger of a batch in the end, and the failure that ended it, if one did. -/
def account (b : Batch) (t : FileTree) (sources : List String) : Ledger × Option Failure :=
  match b.loop sources { tree := t } with
  | .ok _ l => (l, none)
  | .error f l => (l, some f)

end Batch

end ImageSizing
