import ImageSizing.Batch.Options
import ImageSizing.Dimension.Real
import ImageSizing.Raster.Drawing

/-!
# One source at one size

`Pair.plan` decides what is to be drawn: the target in pixels, the format, and the path of
the output, which is a free one unless files may be overwritten.  It reads the tree and
leaves it alone.  `Pair.attempt` draws what was planned.  An attempt carries the tree that it
leaves, also when it fails, for the library may leave something of a failed save.
-/

namespace ImageSizing

/-- What is to be drawn. -/
structure Plan where
  real : RealDimension
  target : PixelSize
  format : PictureFormat
  destination : String

/-- An output that was written. -/
structure Saved where
  destination : String
  real : RealDimension
  target : PixelSize

/-- What an attempt logged, called and left, and how it ended. -/
structure Attempt where
  entries : List LogEntry
  calls : List RasterCall
  tree : FileTree
  result : Except Failure Saved

/-- The real dimension of the picture at a path. -/
def FileTree.probe (t : FileTree) (path : String) : Except Failure RealDimension := do
  let p ← (t.openPicture path).mapError fun f => .fault (.file f)
  (RealDimension.make? (.int p.width) (.int p.height)).mapError .fault

namespace Pair

/-- A target with pixels in it. -/
def checkTarget (p : PixelSize) : Logged Unit :=
  if p.width = 0 ∨ p.height = 0 then .fail (.fault (.output (.emptyTarget p.width p.height)))
  else pure ()

/-- The path of an output, a free one unless files may be overwritten. -/
def destination (t : FileTree) (overwrite : Bool) (folder name ext : String) : String :=
  let wanted := Path.join folder (name ++ "." ++ ext)
  if overwrite then wanted else t.nextAvailable wanted

/-- What is to be drawn for a source of a given real dimension. -/
def planFor (t : FileTree) (e : Engine) (o : BatchOptions) (folder source : String) (size : Value)
    (real : RealDimension) : Logged Plan := do
  let target ← e.toPixels (← e.withFunction size o.function) real
  checkTarget target
  let (ext, format) ← Logged.ofFaulty (PictureFormat.forChoice source o.formatChoice)
  let name ← e.destinationName o.nameTemplate source size
  return ⟨real, target, format, destination t o.overwrite folder name ext⟩

/-- What is to be drawn; the real dimension is read from the source unless it is known. -/
def plan (t : FileTree) (e : Engine) (o : BatchOptions) (folder source : String) (size : Value)
    (known : Option RealDimension) : Logged Plan := do
  let real ← match known with
    | some r => pure r
    | none => Logged.ofExcept (t.probe source)
  planFor t e o folder source size real

/-- Draws what was planned. -/
def carryOut (library : PictureLibrary) (t : FileTree) (source : String) (quality : Value)
    (p : Plan) : Drawing :=
  Drawing.draw library t source p.destination p.target p.format quality

/-- Plans and draws one source at one size. -/
def attempt (library : PictureLibrary) (t : FileTree) (e : Engine) (o : BatchOptions)
    (folder source : String) (size : Value) (known : Option RealDimension) : Attempt :=
  let planned := plan t e o folder source size known
  match planned.result with
  | .error f => ⟨planned.entries, [], t, .error f⟩
  | .ok p =>
    let drawing := carryOut library t source o.quality p
    ⟨planned.entries, drawing.calls, drawing.tree,
      drawing.result.map fun _ => ⟨p.destination, p.real, p.target⟩⟩

end Pair

end ImageSizing
