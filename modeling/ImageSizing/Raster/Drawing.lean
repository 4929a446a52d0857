import ImageSizing.Files.Tree
import ImageSizing.Raster.Quality

/-!
# Drawings

A drawing opens a picture, resizes it, and saves it somewhere, by means of a picture library.
It is recorded as the resize, convert and save calls that it makes, the one that fails
included, with the tree that it leaves.  A picture of the wanted size already is not resized;
one that becomes smaller on some axis is resampled by the sharper filter.  JPEG knows no
transparency and no palette, so such a picture is converted first; only JPEG has a quality.
-/

namespace ImageSizing

/-- One call on a picture library that is not the opening of a file. -/
inductive RasterCall where
  | resize (width height : Nat) (filter : Resampling)
  | convertToRGB
  | save (path : String) (format : PictureFormat) (quality : Option Int)
deriving DecidableEq

/-- Some work on a picture that writes no file: the calls that it takes, and how it ends. -/
structure Rendering where
  calls : List RasterCall
  result : Except ForeignFault Picture

namespace Rendering

/-- Goes on with the picture that comes of some work, if one does. -/
def andThen (r : Rendering) (next : Picture → Rendering) : Rendering :=
  match r.result with
  | .ok p => ⟨r.calls ++ (next p).calls, (next p).result⟩
  | .error f => ⟨r.calls, .error f⟩

end Rendering

/-- The calls of a drawing, the tree that it leaves, and how it ended. -/
structure Drawing where
  calls : List RasterCall
  tree : FileTree
  result : Except Failure Unit

namespace Picture

variable (library : PictureLibrary)

/-- The filter that brings a picture to a size. -/
def filterFor (p : Picture) (target : PixelSize) : Resampling :=
  if target.width < p.width ∨ target.height < p.height then .lanczos else .bicubic

def scaled (p : Picture) (target : PixelSize) : Rendering :=
  if target.width = p.width ∧ target.height = p.height then ⟨[], .ok p⟩
  else
    ⟨[.resize target.width target.height (p.filterFor target)],
      library.resize p target (p.filterFor target)⟩

def needsRGB (p : Picture) (format : PictureFormat) : Bool :=
  format == .jpeg && ["RGBA", "LA", "P"].contains p.mode

/-- Brings a picture to a mode that a format has. -/
def converted (p : Picture) (format : PictureFormat) : Rendering :=
  if p.needsRGB format then ⟨[.convertToRGB], library.convertToRGB p⟩ else ⟨[], .ok p⟩

/-- Makes a picture ready to be written in a size and format. -/
def rendered (p : Picture) (target : PixelSize) (format : PictureFormat) : Rendering :=
  (p.scaled library target).andThen fun q => q.converted library format

end Picture

namespace Drawing

/-- The quality that goes with a format; only JPEG has one. -/
def qualityFor (format : PictureFormat) (quality : Value) : Except Fault (Option Int) :=
  match format with
  | .jpeg => (Quality.ofValue quality).map some
  | _ => .ok none

/-- The failure of a save, if it failed. -/
def outcome : Option FileFault → Except Failure Unit
  | none => .ok ()
  | some f => .error (.fault (.file f))

/-- Writes a picture that is ready. -/
def save (library : PictureLibrary) (t : FileTree) (p : Picture) (destination : String)
    (format : PictureFormat) (quality : Option Int) : Drawing :=
  let saved := t.savePicture library destination p format quality
  ⟨[.save destination format quality], saved.1, outcome saved.2⟩

def write (library : PictureLibrary) (t : FileTree) (p : Picture) (destination : String)
    (target : PixelSize) (format : PictureFormat) (quality : Value) : Drawing :=
  let ready := p.rendered library target format
  match ready.result, qualityFor format quality with
  | .error f, _ => ⟨ready.calls, t, .error (.fault (.file (.library f)))⟩
  | .ok _, .error f => ⟨ready.calls, t, .error (.fault f)⟩
  | .ok q, .ok n =>
    let drawing := save library t q destination format n
    { drawing with calls := ready.calls ++ drawing.calls }

/-- Draws the picture at one path, in a size and format, at another path. -/
def draw (library : PictureLibrary) (t : FileTree) (source destination : String)
    (target : PixelSize) (format : PictureFormat) (quality : Value) : Drawing :=
  match t.openPicture source with
  | .error f => ⟨[], t, .error (.fault (.file f))⟩
  | .ok p => write library t p destination target format quality

end Drawing

end ImageSizing
