import ImageSizing.Files.Fault
import ImageSizing.Files.Library

/-!
# File trees

A finite tree of folders, pictures and other files below a root.  A location is the list of
names that leads from the root to an entry; one location is that of the working folder.
`FileTree.look` follows a path through the tree, from the root if it starts with a slash and
from the working folder if not; opening, saving and making folders are all stated by the
`Place` that it finds.  Saving and making a folder add or replace one entry and leave the
rest.
-/

namespace ImageSizing

/-- An entry of a file tree.  A file that is not `refused` by the picture library, with some
fault, is a picture or is known to be none. -/
inductive Entry where
  | folder
  | picture (p : Picture)
  | refused (fault : ForeignFault)
  | other
deriving DecidableEq, Inhabited

/-- The names that lead from the root to an entry. -/
abbrev Location := List String

/-- The entries below a root, and where the working folder is. -/
structure FileTree where
  entries : List (Location × Entry) := []
  working : Location := []

/-- What a path leads to. -/
inductive Place where
  | found (location : Location) (entry : Entry)
  | free (location : Location)
  | noFolder
  | belowFile
  | tooLong
  | nullCharacter
deriving DecidableEq

namespace FileTree

instance : Inhabited FileTree := ⟨{}⟩

/-- The entry at a location; the root itself is a folder. -/
def at? (t : FileTree) (loc : Location) : Option Entry :=
  if loc.isEmpty then some .folder else (t.entries.find? fun e => e.1 == loc).map (·.2)

/-- Puts an entry in the place of the one at the same location, else at the end. -/
def putEntry (loc : Location) (entry : Entry) : List (Location × Entry) → List (Location × Entry)
  | [] => [(loc, entry)]
  | e :: rest => if e.1 = loc then (loc, entry) :: rest else e :: putEntry loc entry rest

/-- The tree with an entry put at a location. -/
def put (t : FileTree) (loc : Location) (entry : Entry) : FileTree :=
  { t with entries := putEntry loc entry t.entries }

/-! ## Paths -/

/-- The greatest length of a name, in bytes. -/
def nameLimit : Nat := 255

/-- The greatest length of a path, in bytes. -/
def pathLimit : Nat := 4095

/-- Follows names from an entry of the tree. -/
def lookFrom (t : FileTree) : Location → Entry → List String → Place
  | loc, entry, [] => .found loc entry
  | loc, entry, name :: rest =>
    if entry ≠ .folder then .belowFile
    else if name = "." then lookFrom t loc .folder rest
    else if name = ".." then lookFrom t loc.dropLast .folder rest
    else if nameLimit < name.utf8ByteSize then .tooLong
    else
      match t.at? (loc ++ [name]) with
      | some next => lookFrom t (loc ++ [name]) next rest
      | none => if rest.isEmpty then .free (loc ++ [name]) else .noFolder

/-- The names that are followed from the root for a path; one that does not start with a slash
goes on from the working folder. -/
def namesOf (t : FileTree) (path : String) : List String :=
  if path.toList.head? = some '/' then Path.parts path else t.working ++ Path.parts path

/-- What a path leads to, a slash at its end being ignored. -/
def lookLoosely (t : FileTree) (path : String) : Place :=
  if path.toList.contains '\x00' then .nullCharacter
  else if path.isEmpty then .noFolder
  else if pathLimit < path.utf8ByteSize then .tooLong
  else t.lookFrom [] .folder (t.namesOf path)

/-- What a path leads to; after a slash at its end there must be a folder. -/
def look (t : FileTree) (path : String) : Place :=
  match t.lookLoosely path, Path.endsInSlash path with
  | .found loc .folder, _ => .found loc .folder
  | .found _ _, true => .belowFile
  | .free _, true => .noFolder
  | place, _ => place

/-- Whether a path leads to an entry. -/
def hasPath (t : FileTree) (path : String) : Bool :=
  match t.look path with
  | .found .. => true
  | _ => false

/-- The fault of a path that leads nowhere. -/
def lostFault (path : String) : Place → FileFault
  | .belowFile => .notDirectory path
  | .tooLong => .nameTooLong path
  | .nullCharacter => .nullCharacter
  | _ => .notFound path

/-! ## Reading and writing -/

def openPicture (t : FileTree) (path : String) : Except FileFault Picture :=
  match t.look path with
  | .found _ (.picture p) => .ok p
  | .found _ .folder => .error (.isDirectory path)
  | .found _ (.refused f) => .error (.library f)
  | .found _ .other => .error (.notAnImage path)
  | place => .error (lostFault path place)

/-- Where a file can be written for a path: over a file that is there, or in a free place. -/
def savePlace (t : FileTree) (path : String) : Except FileFault Location :=
  match t.lookLoosely path, Path.endsInSlash path with
  | .found _ .folder, _ => .error (.isDirectory path)
  | .found loc _, false => .ok loc
  | .free loc, false => .ok loc
  | .found _ _, true => .error (.isDirectory path)
  | .free _, true => .error (.isDirectory path)
  | place, _ => .error (lostFault path place)

/-- The tree with what a failed save leaves at a location. -/
def leave (t : FileTree) (loc : Location) : Remnant → FileTree
  | .asBefore => t
  | .readable p => t.put loc (.picture p)
  | .unreadable => t.put loc .other

/-- Saves a picture at a path, over a file that is there.  The place comes first: where there
is none, the picture is not encoded. -/
def savePicture (t : FileTree) (library : PictureLibrary) (path : String) (p : Picture)
    (format : PictureFormat) (quality : Option Int) : FileTree × Option FileFault :=
  match t.savePlace path with
  | .error fault => (t, some fault)
  | .ok loc =>
    match library.encode p format quality with
    | .ok stored => (t.put loc (.picture stored), none)
    | .error fault =>
      (t.leave loc (library.remnant (t.at? loc).isNone p format quality), some (.library fault))

/-- Makes one folder. -/
def makeFolder (t : FileTree) (path : String) : Except FileFault FileTree :=
  match t.lookLoosely path with
  | .free loc => .ok (t.put loc .folder)
  | .found .. => .error (.alreadyExists path)
  | place => .error (lostFault path place)

def isFolder (t : FileTree) (path : String) : Bool :=
  match t.look path with
  | .found _ .folder => true
  | _ => false

/-- A path above another and the last name, slashes at the end passed over. -/
def parentAndName (path : String) : String × String :=
  if (Path.baseName path).isEmpty then
    (Path.folderName (Path.folderName path), Path.baseName (Path.folderName path))
  else (Path.folderName path, Path.baseName path)

/-- Makes a folder whose parent is there, or finds it there already. -/
def ensureFolder (t : FileTree) (path : String) : FileTree × Option FileFault :=
  match t.makeFolder path with
  | .ok made => (made, none)
  | .error fault => if t.isFolder path then (t, none) else (t, some fault)

/-- Whether a fault says that something is there already. -/
def isExistence : FileFault → Bool
  | .alreadyExists _ => true
  | _ => false

/-- Makes a folder and those above it, at most `depth` of them. -/
def makeFoldersWithin : Nat → FileTree → String → FileTree × Option FileFault
  | 0, t, path => t.ensureFolder path
  | depth + 1, t, path =>
    let (parent, name) := parentAndName path
    if parent.isEmpty || name.isEmpty || t.hasPath parent then t.ensureFolder path
    else
      match makeFoldersWithin depth t parent with
      | (made, fault) =>
        if fault.any fun f => !isExistence f then (made, fault)
        else if name = "." then (made, none)
        else made.ensureFolder path

/-- Makes a folder and all that are missing above it; the folders made before a fault
remain. -/
def makeFolders (t : FileTree) (path : String) : FileTree × Option FileFault :=
  makeFoldersWithin path.length t path

/-- The tree with a file at a path, in the place of one that is there; the folders above it
are made.  Where no file can be, the tree stays as it is. -/
def addFile (t : FileTree) (path : String) (entry : Entry) : FileTree :=
  let made := (t.makeFolders (Path.folderName path)).1
  match made.look path with
  | .found _ .folder => made
  | .found loc _ => made.put loc entry
  | .free loc => made.put loc entry
  | _ => made

/-! ## Free names -/

/-- A path with a number before its extension. -/
def numbered (path : String) (n : Nat) : String :=
  (Path.splitExtension path).1 ++ "_" ++ Numeral.text n ++ (Path.splitExtension path).2

/-- The first free numbered path from `n` on, with a number of attempts. -/
def firstFree (t : FileTree) (path : String) : Nat → Nat → String
  | 0, n => numbered path n
  | attempts + 1, n =>
    if t.hasPath (numbered path n) then firstFree t path attempts (n + 1) else numbered path n

/-- A path itself if it is free, else the first free numbered one; a tree has fewer entries
than there are attempts. -/
def nextAvailable (t : FileTree) (path : String) : String :=
  if t.hasPath path then t.firstFree path (t.entries.length + 1) 2 else path

/-! ## Listings -/

/-- The names that lead from a location to each file below it. -/
def filesBelow (t : FileTree) (loc : Location) : List Location :=
  t.entries.filterMap fun e =>
    if loc.isPrefixOf e.1 && e.2 != .folder then some (e.1.drop loc.length) else none

/-- Whether the last name of a location is that of a picture. -/
def endsSupported (loc : Location) : Bool := loc.getLast?.any Path.isSupported

/-- Whether a walk from a folder comes to a file below it; a folder whose path is too long is
passed over. -/
def isWalked (folder : String) (names : Location) : Bool :=
  decide ((names.dropLast.foldl Path.join folder).utf8ByteSize ≤ pathLimit)

/-- Whether a listing of a folder shows a file below it. -/
def isListed (folder : String) (names : Location) : Bool :=
  endsSupported names && isWalked folder names

def byCodePoint (a b : String) : Bool := !decide (b < a)

/-- The pictures below a folder, in order of their paths; a path that leads to no folder has
none. -/
def listImages (t : FileTree) (folder : String) : Except FileFault (List String) :=
  match t.look folder with
  | .found loc .folder =>
    .ok ((((t.filesBelow loc).filter (isListed folder)).map fun names =>
      names.foldl Path.join folder).mergeSort byCodePoint)
  | .nullCharacter => .error .nullCharacter
  | _ => .ok []

/-- The pictures to work on: chosen files win over a folder. -/
def gatherInputs (t : FileTree) (files : List String) (folder : Option String) :
    Except FileFault (List String) :=
  if files.isEmpty then
    match folder with
    | some f => if f.isEmpty then .ok [] else t.listImages f
    | none => .ok []
  else .ok (files.filter Path.isSupported)

/-- All paths below the working folder, those of folders ending in a slash, in order. -/
def listing (t : FileTree) : List String :=
  ((t.entries.filter fun e => t.working.isPrefixOf e.1 && e.1 != t.working).map fun e =>
    "/".intercalate (e.1.drop t.working.length) ++ (if e.2 = .folder then "/" else "")).mergeSort
      byCodePoint

end FileTree

end ImageSizing
