import ImageSizing.Text.Lowercase

/-!
# Paths

Paths are texts with slashes.  The last part is the file name; its extension starts at its
last dot, unless only dots stand before that dot.  `Path.join` puts a slash between two
parts where there is none.
-/

namespace ImageSizing.Path

/-- A path up to and including its last slash, and what follows. -/
def splitLast (cs : List Char) : List Char × List Char :=
  ((cs.reverse.dropWhile (· != '/')).reverse, (cs.reverse.takeWhile (· != '/')).reverse)

def baseName (path : String) : String := String.ofList (splitLast path.toList).2

/-- A folder path without the slashes at its end, unless it is slashes only. -/
def trimSlashes (cs : List Char) : List Char :=
  let kept := (cs.reverse.dropWhile (· == '/')).reverse
  if kept.isEmpty then cs else kept

def folderName (path : String) : String := String.ofList (trimSlashes (splitLast path.toList).1)

/-- A path below a folder. -/
def join (folder name : String) : String :=
  if name.toList.head? = some '/' then name
  else if folder.isEmpty || folder.toList.getLast? = some '/' then folder ++ name
  else folder ++ "/" ++ name

/-- A file name without its extension, and the extension with its dot. -/
def splitName (name : List Char) : List Char × List Char :=
  let ext := (name.reverse.takeWhile (· != '.')).reverse
  match name.reverse.dropWhile (· != '.') with
  | [] => (name, [])
  | _ :: before =>
    if before.all (· == '.') then (name, []) else (before.reverse, '.' :: ext)

/-- A path without its extension, and the extension with its dot. -/
def splitExtension (path : String) : String × String :=
  let (folder, name) := splitLast path.toList
  let (stem, ext) := splitName name
  (String.ofList (folder ++ stem), String.ofList ext)

/-- The extension of a path with its dot, as it is written. -/
def extension (path : String) : String := (splitExtension path).2

/-- The file name of a path without its extension. -/
def stem (path : String) : String := (splitExtension (baseName path)).1

def supportedExtensions : List String := [".jpg", ".jpeg", ".png", ".webp", ".bmp", ".tiff"]

def isSupported (path : String) : Bool := supportedExtensions.contains (Text.lower (extension path))

/-- The parts between the slashes of a path, empty ones left out. -/
def parts (path : String) : List String := go path.toList
where
  /-- The parts, the first one continuing a part that began before. -/
  go (cs : List Char) : List String :=
    (List.foldr step ([], []) cs |> fun r => if r.1.isEmpty then r.2 else String.ofList r.1 :: r.2)
  /-- Adds a character in front of the parts that follow it. -/
  step (c : Char) (r : List Char × List String) : List Char × List String :=
    if c = '/' then ([], if r.1.isEmpty then r.2 else String.ofList r.1 :: r.2) else (c :: r.1, r.2)

def endsInSlash (path : String) : Bool := path.toList.getLast? == some '/'

end ImageSizing.Path
