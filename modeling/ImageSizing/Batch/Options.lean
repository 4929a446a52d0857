import ImageSizing.Engine.Basic
import ImageSizing.Files.Picture

/-!
# Options of a batch

What a batch is told besides its sources: the sizes, the function of sizes that name none,
how outputs are named, in which format and quality they are written, and whether files may
be overwritten.
-/

namespace ImageSizing

/-- The options of a batch. -/
structure BatchOptions where
  sizes : List Value := [.str "50%"]
  function : Value := .nothing
  nameTemplate : String := "\x7bname\x7d-w\x7bwidth\x7d"
  formatChoice : Value := .str "keep"
  quality : Value := .int 85
  overwrite : Bool := false

namespace Engine

/-- A size with a function put in where it names none; no function leaves it as it is. -/
def withFunction (e : Engine) (size function : Value) : Logged Value := do
  if function.isTruthy then
    let canonical ← e.elaborate size
    match canonical.get "function" with
    | .nothing => return .map (Mapping.insert "function" function canonical)
    | _ => return .map canonical
  else return size

/-- An axis as names show it: empty text where there is none. -/
def axisField (v : Value) : Value :=
  match v with
  | .nothing => .str ""
  | v => v

/-- The fields that name templates may use. -/
def nameFields (canonical : Mapping) (source : String) : List (String × Value) :=
  [("name", .str (Path.stem source)), ("width", axisField (canonical.get "width")),
    ("height", axisField (canonical.get "height"))]

/-- The name template of a size: its own if it has one, else the given one. -/
def templateOf (canonical : Mapping) (template : Value) : Except Fault String :=
  if (canonical.get "name").isTruthy then (canonical.get "name").display? else template.display?

/-- The path that a value is. -/
def pathOf : Value → Except Fault String
  | .str path => .ok path
  | v => .error (.notPath v.typeName)

/-- The output name of a source at a size, without extension, from a template and a source
that should be texts. -/
def looseDestinationName (e : Engine) (template source size : Value) : Logged String := do
  let canonical ← e.elaborate size
  let path ← Logged.ofFaulty (pathOf source)
  let chosen ← Logged.ofFaulty (templateOf canonical template)
  Logged.ofFaulty (Template.fill e.attributes (nameFields canonical path) chosen)

/-- The output name of a source at a size, without extension. -/
def destinationName (e : Engine) (template source : String) (size : Value) : Logged String :=
  e.looseDestinationName (.str template) (.str source) size

end Engine

namespace PictureFormat

/-- The extension and format of the output of a source; the choice `keep` keeps the
extension of the source. -/
def forOutput (source choice : String) : Except Fault (String × PictureFormat) :=
  let ext := if choice = "keep" then Path.plainExtension source else choice
  match ofExtension? ext with
  | some f => .ok (ext, f)
  | none => .error (.output (.unknownFormat ext))

/-- The extension and format of the output of a source for a choice that need not be text; a
choice that is none stands for no format. -/
def forChoice (source : String) : Value → Except Fault (String × PictureFormat)
  | .str choice => forOutput source choice
  | v =>
    match Mapping.unhashable? v with
    | some t => .error (.unhashable t)
    | none => do .error (.output (.unknownFormat (← v.display?)))

end PictureFormat

end ImageSizing
