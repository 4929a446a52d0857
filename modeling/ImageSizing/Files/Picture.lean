import ImageSizing.Files.Path

/-!
# Pictures

What is known of a picture file: its size, its colour mode and the format in which it is
stored.  The rest of the file is for a picture library to read.  Formats are known by the
extensions of their files.
-/

namespace ImageSizing

/-- A format in which pictures are stored. -/
inductive PictureFormat where
  | jpeg
  | png
  | webp
  | bmp
  | tiff
  | other (name : String)
deriving DecidableEq, Inhabited

namespace PictureFormat

def name : PictureFormat → String
  | jpeg => "JPEG"
  | png => "PNG"
  | webp => "WEBP"
  | bmp => "BMP"
  | tiff => "TIFF"
  | other n => n

/-- The format of a given name. -/
def ofName : String → PictureFormat
  | "JPEG" => jpeg
  | "PNG" => png
  | "WEBP" => webp
  | "BMP" => bmp
  | "TIFF" => tiff
  | n => other n

/-- The format of an extension, given in small letters and without its dot. -/
def ofExtension? : String → Option PictureFormat
  | "jpg" => some jpeg
  | "jpeg" => some jpeg
  | "png" => some png
  | "webp" => some webp
  | "bmp" => some bmp
  | "tiff" => some tiff
  | _ => none

end PictureFormat

namespace Path

/-- The extension of a path in small letters, without the dots in front of it. -/
def plainExtension (path : String) : String :=
  Text.lower (String.ofList ((extension path).toList.dropWhile (· == '.')))

end Path

/-- A picture file; `content` is the rest of it. -/
structure Picture where
  width : Nat
  height : Nat
  mode : String
  format : PictureFormat
  content : List UInt8
deriving DecidableEq, Inhabited

namespace Picture

/-- The picture of a size that is stored at a path, its format being that of the extension. -/
def stored (path : String) (width height : Nat) (mode : String) : Picture :=
  let ext := Path.plainExtension path
  ⟨width, height, mode, (PictureFormat.ofExtension? ext).getD (.other ext), []⟩

end Picture

end ImageSizing
