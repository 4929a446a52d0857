import ImageSizing.Window.Basic

/-!
# Previews

A preview lists, for the first pictures of a selection, what each size comes to in pixels.
A picture that cannot be opened and a size that cannot be resolved have a line that says
so; any other failure ends the preview.
-/

namespace ImageSizing

/-- Lines of a preview, and the failure that cut them short, if one did. -/
structure Preview where
  lines : List String
  failure : Option Failure

namespace Preview

def empty : Preview := ⟨[], none⟩

/-- The lines of one part and then those of the next, unless the first was cut short. -/
def andThen (p : Preview) (next : Preview) : Preview :=
  match p.failure with
  | some f => ⟨p.lines, some f⟩
  | none => ⟨p.lines ++ next.lines, next.failure⟩

def pictureLimit : Nat := 10

def header (pictures sizes : Nat) : String :=
  "Selected " ++ Numeral.text pictures ++ " images, " ++ Numeral.text sizes
    ++ " sizes.\n\nTarget sizes (first 10 images):\n"

def resolvedLine (path size : String) (real : RealDimension) (target : PixelSize) : String :=
  "- " ++ Path.baseName path ++ " (" ++ real.width.text ++ "x" ++ real.height.text ++ ") @ " ++ size
    ++ " -> (" ++ Numeral.text target.width ++ "x" ++ Numeral.text target.height ++ ")"

def unresolvedLine (path size : String) (f : Failure) : String :=
  "- " ++ Path.baseName path ++ " @ " ++ size ++ " [error: " ++ f.message ++ "]"

/-- The line of a picture that cannot be opened. -/
def unreadableLine (path : String) (f : Failure) : String :=
  "- " ++ Path.baseName path ++ " [error: " ++ f.message ++ "]"

/-- What a size comes to for a picture. -/
def resolve (e : Engine) (function size : String) (real : RealDimension) : Logged PixelSize := do
  e.toPixels (← e.withFunction (.str size) (.str function)) real

def ofSize (e : Engine) (function path : String) (real : RealDimension) (size : String) : Preview :=
  let r := resolve e function size real
  let log := r.entries.map LogEntry.line
  match r.result with
  | .ok target => ⟨log ++ [resolvedLine path size real target], none⟩
  | .error f => if f.isSizing then ⟨log ++ [unresolvedLine path size f], none⟩ else ⟨log, some f⟩

def ofPicture (t : FileTree) (e : Engine) (function : String) (sizes : List String)
    (path : String) : Preview :=
  match t.probe path with
  | .error f => if f.isFromSystem then ⟨[unreadableLine path f], none⟩ else ⟨[], some f⟩
  | .ok real => sizes.foldr (fun s p => (ofSize e function path real s).andThen p) empty

def ofPictures (t : FileTree) (e : Engine) (function : String) (sizes paths : List String) :
    Preview :=
  (paths.take pictureLimit).foldr (fun p rest => (ofPicture t e function sizes p).andThen rest) empty

end Preview

end ImageSizing
