import ImageSizing.Template.Fault
import ImageSizing.Text.Quoted

/-!
# Faults of files and pictures

What can be wrong with a path when a file is opened, saved or a folder is made, and what can
be wrong with a picture that is to be written.  A picture library has faults of its own.
-/

namespace ImageSizing

/-- Why a file or folder could not be used. -/
inductive FileFault where
  | notFound (path : String)
  | isDirectory (path : String)
  | notDirectory (path : String)
  | alreadyExists (path : String)
  | nameTooLong (path : String)
  | notAnImage (path : String)
  | nullCharacter
  | library (fault : ForeignFault)
deriving DecidableEq

namespace FileFault

def message : FileFault → String
  | notFound p => "[Errno 2] No such file or directory: " ++ Text.quote p
  | isDirectory p => "[Errno 21] Is a directory: " ++ Text.quote p
  | notDirectory p => "[Errno 20] Not a directory: " ++ Text.quote p
  | alreadyExists p => "[Errno 17] File exists: " ++ Text.quote p
  | nameTooLong p => "[Errno 36] File name too long: " ++ Text.quote p
  | notAnImage p => "cannot identify image file " ++ Text.quote p
  | nullCharacter => "embedded null byte"
  | library f => f.message

def kind : FileFault → FaultKind
  | notFound _ => .notFound
  | isDirectory _ => .isDirectory
  | notDirectory _ => .notDirectory
  | alreadyExists _ => .alreadyExists
  | nameTooLong _ => .system
  | notAnImage _ => .notAnImage
  | nullCharacter => .value
  | library f => f.kind

/-- Whether the failure is one of the file system or of reading a picture. -/
def isFromSystem (f : FileFault) : Bool := f.kind.isFromSystem

end FileFault

/-- Why a picture could not be written. -/
inductive OutputFault where
  | unknownFormat (extension : String)
  | emptyTarget (width height : Nat)
  | qualityText (quoted : String)
  | qualityType (typeName : String)
deriving DecidableEq

namespace OutputFault

def message : OutputFault → String
  | unknownFormat e => "Unknown output format ." ++ e
  | emptyTarget w h => "Resolved size " ++ Numeral.text w ++ "x" ++ Numeral.text h ++ " is empty"
  | qualityText q => "invalid literal for int() with base 10: " ++ q
  | qualityType t =>
    "int() argument must be a string, a bytes-like object or a real number, not '" ++ t ++ "'"

def kind : OutputFault → FaultKind
  | qualityType _ => .type
  | _ => .value

end OutputFault

end ImageSizing
