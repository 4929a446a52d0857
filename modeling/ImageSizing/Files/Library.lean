import ImageSizing.Dimension.Extent
import ImageSizing.Files.Picture
import ImageSizing.Template.Fault

/-!
# Picture libraries

Resizing, converting and encoding are the work of a picture library.  Each of them may fail,
for any reason.  A save opens the file before it encodes the picture, so a save that fails may
leave something where the picture was to be: a `Remnant`.  What else is expected of a library
is stated by `KeepsSizes`, `LeavesNothingNew` and `FailsClean`, for those results that rest on
it.
-/

namespace ImageSizing

def Picture.size (p : Picture) : PixelSize := ⟨p.width, p.height⟩

/-- How the pixels of a resized picture are computed. -/
inductive Resampling where
  | lanczos
  | bicubic
deriving DecidableEq

namespace Resampling

def name : Resampling → String
  | lanczos => "LANCZOS"
  | bicubic => "BICUBIC"

end Resampling

/-- What a failed save leaves where the picture was to be; `asBefore` leaves nothing in a free
place, and a file as it was. -/
inductive Remnant where
  | asBefore
  | readable (p : Picture)
  | unreadable
deriving DecidableEq

/-- A library that works on pictures.  `encode` is the picture that a save stores; where there
is none, `remnant` is what the save leaves, in a place that was free or over a file. -/
structure PictureLibrary where
  resize : Picture → PixelSize → Resampling → Except ForeignFault Picture
  convertToRGB : Picture → Except ForeignFault Picture
  encode : Picture → PictureFormat → Option Int → Except ForeignFault Picture
  remnant : Bool → Picture → PictureFormat → Option Int → Remnant

namespace PictureLibrary

/-- A resized picture has the size that was asked for, and no other operation changes it. -/
structure KeepsSizes (library : PictureLibrary) : Prop where
  resize : ∀ p target filter q, library.resize p target filter = .ok q → q.size = target
  convert : ∀ p q, library.convertToRGB p = .ok q → q.size = p.size
  encode : ∀ p format quality q, library.encode p format quality = .ok q → q.size = p.size

/-- A save that fails leaves no file where none was. -/
def LeavesNothingNew (library : PictureLibrary) : Prop :=
  ∀ p format quality f, library.encode p format quality = .error f →
    library.remnant true p format quality = .asBefore

/-- A save that fails changes no file, be there one in its place or not. -/
def FailsClean (library : PictureLibrary) : Prop :=
  ∀ isNew p format quality f, library.encode p format quality = .error f →
    library.remnant isNew p format quality = .asBefore

theorem FailsClean.leavesNothingNew {library : PictureLibrary} (h : library.FailsClean) :
    library.LeavesNothingNew := h true

/-! ## A library that does everything -/

/-- The library that resizes, converts and stores whatever it is given. -/
def plain : PictureLibrary where
  resize p target _ := .ok { p with width := target.width, height := target.height }
  convertToRGB p := .ok { p with mode := "RGB" }
  encode p format _ := .ok { p with format }
  remnant _ _ _ _ := .asBefore

theorem keepsSizes_plain : plain.KeepsSizes where
  resize p target filter q h := by
    cases h
    rfl
  convert p q h := by
    cases h
    rfl
  encode p format quality q h := by
    cases h
    rfl

theorem failsClean_plain : plain.FailsClean := fun _ _ _ _ _ _ => rfl

/-! ## A library that empties files -/

/-- The library that cannot store CMYK pictures as PNG.  It finds out when the file is open, and
empty; a file that it made itself it takes away again. -/
def emptying : PictureLibrary :=
  { plain with
    encode := fun p format quality =>
      if p.mode = "CMYK" ∧ format = .png then
        .error ⟨.system, "cannot write mode CMYK as PNG"⟩
      else plain.encode p format quality
    remnant := fun isNew _ _ _ => if isNew then .asBefore else .unreadable }

theorem leavesNothingNew_emptying : emptying.LeavesNothingNew := fun _ _ _ _ _ => rfl

theorem keepsSizes_emptying : emptying.KeepsSizes where
  resize := keepsSizes_plain.resize
  convert := keepsSizes_plain.convert
  encode p format quality q h := by
    unfold emptying at h
    dsimp only at h
    split at h
    · cases h
    · exact keepsSizes_plain.encode p format quality q h

end PictureLibrary

end ImageSizing
