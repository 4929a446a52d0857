import ImageSizing.Template.Found

/-!
# Templates

A template is text with fields in braces; a brace that is text is written twice.  A field
names a value, perhaps with look-ups into it, a conversion and a layout, which may itself
have fields.  `pieces` takes a template apart, up to the first fault in its form; `fill`
writes it out, so that the fault of an early field wins over a fault in the form of what
follows.
-/

namespace ImageSizing.Template

/-- A piece of a template. -/
inductive Piece where
  | literal (text : List Char)
  | field (name : List Char) (conversion : Option Char) (layout : List Char) (nested : Bool)

/-! ## Form -/

/-- The name of a field: all up to the brace, colon or exclamation mark that ends it, an
index in brackets being passed over. -/
def takeName (inIndex : Bool) : List Char → Except TemplateFault (List Char × Char × List Char)
  | [] => .error .unclosedField
  | c :: cs =>
    if inIndex then do
      let (name, stop, rest) ← takeName (c != ']') cs
      return (c :: name, stop, rest)
    else if c = '\x7b' then .error .openInField
    else if c = '\x7d' || c = ':' || c = '!' then .ok ([], c, cs)
    else do
      let (name, stop, rest) ← takeName (c == '[') cs
      return (c :: name, stop, rest)

/-- A layout up to the brace that closes its field, `depth` braces being open in it;
whether it holds fields, and the rest. -/
def takeLayout (depth : Nat) : List Char → Except TemplateFault (List Char × Bool × List Char)
  | [] => .error .unclosedLayout
  | c :: cs =>
    if c = '\x7b' then do
      let (layout, _, rest) ← takeLayout (depth + 1) cs
      return (c :: layout, true, rest)
    else if c = '\x7d' then
      match depth with
      | 0 => .ok ([], false, cs)
      | inner + 1 => do
        let (layout, nested, rest) ← takeLayout inner cs
        return (c :: layout, nested, rest)
    else do
      let (layout, nested, rest) ← takeLayout depth cs
      return (c :: layout, nested, rest)

def withLayout (name : List Char) (conversion : Option Char) (cs : List Char) :
    Except TemplateFault (Piece × List Char) := do
  let (layout, nested, rest) ← takeLayout 0 cs
  return (.field name conversion layout nested, rest)

/-- A field after its opening brace, and the rest. -/
def takeField (cs : List Char) : Except TemplateFault (Piece × List Char) := do
  let (name, stop, rest) ← takeName false cs
  if stop = '\x7d' then return (.field name none [] false, rest)
  else if stop = ':' then withLayout name none rest
  else
    match rest with
    | [] => .error .missingConversion
    | [c] => withLayout name (some c) []
    | c :: d :: after =>
      if d = '\x7d' then return (.field name (some c) [] false, after)
      else if d = ':' then withLayout name (some c) after
      else .error .conversionNotLast

def isBrace (c : Char) : Bool := c == '\x7b' || c == '\x7d'

/-- The first piece of a template that is not empty, and the rest. -/
def takePiece (cs : List Char) : Except TemplateFault (List Piece × List Char) :=
  let text := cs.takeWhile fun c => !isBrace c
  match cs.dropWhile fun c => !isBrace c with
  | [] => .ok ([.literal text], [])
  | [c] => .error (if c = '\x7d' then .loneClose else .loneOpen)
  | c :: d :: rest =>
    if c = d then .ok ([.literal (text ++ [c])], rest)
    else if c = '\x7d' then .error .loneClose
    else do
      let (piece, after) ← takeField (d :: rest)
      return ([.literal text, piece], after)

/-- The pieces of a template, and the fault that ends them. -/
def piecesWithin : Nat → List Char → List Piece × Option TemplateFault
  | 0, _ => ([], none)
  | _, [] => ([], none)
  | fuel + 1, cs =>
    match takePiece cs with
    | .error f => ([], some f)
    | .ok (ps, rest) =>
      let (more, fault) := piecesWithin fuel rest
      (ps ++ more, fault)

/-- The pieces of a template, and the fault that ends them; each piece takes at least one
character. -/
def pieces (cs : List Char) : List Piece × Option TemplateFault := piecesWithin cs.length cs

/-! ## Look-ups -/

/-- A look-up in the name of a field. -/
inductive Lookup where
  | byName (name : List Char)
  | byIndex (index : List Char)

/-- The number that a text of digits writes, if it is one; `n` is the number so far.  A
number grows too long before a later character shows that it is none. -/
def indexFrom? (n : Nat) : List Char → Except TemplateFault (Option Nat)
  | [] => .ok (some n)
  | c :: cs =>
    match Text.digitValue? c with
    | none => .ok none
    | some d => if Layout.countLimit < 10 * n + d then .error .indexTooLong else indexFrom? (10 * n + d) cs

/-- The number that a text of digits writes, if it is one. -/
def indexOf? (cs : List Char) : Except TemplateFault (Option Nat) :=
  if cs.isEmpty then .ok none else indexFrom? 0 cs

/-- The next look-up in the name of a field, and the rest. -/
def takeLookup : List Char → Except TemplateFault (Lookup × List Char)
  | '.' :: cs =>
    let isInside := fun c => c != '.' && c != '['
    let name := cs.takeWhile isInside
    if name.isEmpty then .error .emptyPart else .ok (.byName name, cs.dropWhile isInside)
  | '[' :: cs =>
    let index := cs.takeWhile (· != ']')
    match cs.dropWhile (· != ']') with
    | [] => .error .unclosedIndex
    | _ :: rest => if index.isEmpty then .error .emptyPart else .ok (.byIndex index, rest)
  | _ => .error .afterIndex

/-- The item of a value under an index in brackets. -/
def itemUnder (v : Value) (index : List Char) : Except TemplateFault Value := do
  match ← indexOf? index with
  | some i => atIndex v i
  | none => underKey v (String.ofList index)

/-- Follows the look-ups in a text, of which each takes at least one character, up to the first
attribute. -/
def follow (attributes : Attributes) : Nat → Value → List Char → Except TemplateFault Found
  | 0, v, _ => .ok (.value v)
  | _, v, [] => .ok (.value v)
  | fuel + 1, v, cs => do
    match ← takeLookup cs with
    | (.byName _, _) => return .object (← (attributes v cs).mapError .foreign)
    | (.byIndex index, rest) => follow attributes fuel (← itemUnder v index) rest

/-- The name of a field up to its look-ups. -/
def keyOf (name : List Char) : List Char := name.takeWhile fun c => c != '.' && c != '['

/-- The look-ups in the name of a field. -/
def lookupsOf (name : List Char) : List Char := name.dropWhile fun c => c != '.' && c != '['

/-- What a field name leads to. -/
def find (attributes : Attributes) (fields : List (String × Value)) (name : List Char) :
    Except TemplateFault Found := do
  match ← indexOf? (keyOf name) with
  | some i => .error (.noPositional i)
  | none =>
    if (keyOf name).isEmpty then .error (.noPositional 0)
    else
      match fields.find? fun f => f.1 == String.ofList (keyOf name) with
      | none => .error (.unknownField (Text.quote (String.ofList (keyOf name))))
      | some f => follow attributes name.length f.2 (lookupsOf name)

/-! ## Writing -/

/-- Applies a conversion; the null character asks for none. -/
def convert (conversion : Option Char) (x : Found) : Except Fault Found :=
  match conversion with
  | none => .ok x
  | some '\x00' => .ok x
  | some 's' => do return .value (.str (← x.display?))
  | some 'r' => do return .value (.str (← x.quoted?))
  | some 'a' => do return .value (.str (Text.asciiOnly (← x.quoted?)))
  | some c => .error (.template (.unknownConversion c))

section

variable (attributes : Attributes) (fields : List (String × Value))

/-- Writes one piece; `inner` fills the layouts that have fields themselves. -/
def writePiece (inner : List Char → Except Fault (List Char)) : Piece → Except Fault (List Char)
  | .literal text => .ok text
  | .field name conversion layout nested => do
    let found ← (find attributes fields name).mapError .template
    let converted ← convert conversion found
    converted.write (← if nested then inner layout else pure layout)

/-- Writes pieces one after the other, and then fails if a fault ends them. -/
def writeAll (inner : List Char → Except Fault (List Char)) (fault : Option TemplateFault) :
    List Piece → Except Fault (List Char)
  | [] =>
    match fault with
    | some f => .error (.template f)
    | none => .ok []
  | p :: ps => do
    let cs ← writePiece attributes fields inner p
    return cs ++ (← writeAll inner fault ps)

/-- Fills a template whose layouts hold fields at most `depth - 1` deep. -/
def fillWithin : Nat → List Char → Except Fault (List Char)
  | 0, _ => .error (.template .tooDeep)
  | depth + 1, cs =>
    writeAll attributes fields (fillWithin depth) (pieces cs).2 (pieces cs).1

/-- Fills a template; the layout of a field may hold fields without layouts of their own
holding any. -/
def fill (template : String) : Except Fault String := do
  return String.ofList (← fillWithin attributes fields 2 template.toList)

end

end ImageSizing.Template
