import ImageSizing.Value.Display
import ImageSizing.Value.KeyOrder

/-!
# Described values

Messages end with a description of the size in question.  It is JSON text in ASCII with the
entries of mappings sorted by key, and objects that JSON does not know written as strings
of their printed form.  Keys that cannot be compared or written make the whole description
fall back to `Value.quoted`.  The snapshot that a size carries under `original` is left out.
-/

namespace ImageSizing.Value

/-- Four lower-case hexadecimal digits after a backslash and `u`. -/
def unitEscape (n : Nat) : List Char := ['\\', 'u'] ++ Text.hex 4 n

/-- One character of a JSON string in ASCII; beyond 2¹⁶ as a surrogate pair. -/
def jsonChar (c : Char) : List Char :=
  if c = '\x22' || c = '\\' then ['\\', c]
  else if c = '\n' then ['\\', 'n']
  else if c = '\r' then ['\\', 'r']
  else if c = '\t' then ['\\', 't']
  else if c = '\x0c' then ['\\', 'f']
  else if c = '\x08' then ['\\', 'b']
  else if 32 ≤ c.toNat && c.toNat < 127 then [c]
  else if c.toNat < 0x10000 then unitEscape c.toNat
  else unitEscape (0xD800 + (c.toNat - 0x10000) / 0x400)
    ++ unitEscape (0xDC00 + (c.toNat - 0x10000) % 0x400)

def jsonString (s : String) : String :=
  String.ofList ('\x22' :: s.toList.flatMap jsonChar ++ ['\x22'])

/-- A double in JSON text; infinities and `nan` have names there. -/
def jsonFloat : Binary64 → String
  | .nan => "NaN"
  | .infinite negative => if negative then "-Infinity" else "Infinity"
  | x => x.text

/-- The JSON text of a key, if it can be one. -/
def jsonKey? : Value → Option String
  | .str s => some s
  | .nothing => some "null"
  | .bool b => some (if b then "true" else "false")
  | .int n => some (Numeral.text n)
  | .float x => some (jsonFloat x)
  | _ => none

/-- Sorted entries as the members of a JSON object. -/
def jsonObject? (entries : List (Value × String)) : Option String := do
  let sorted ← sortByKey? entries
  let members ← sorted.mapM fun e => do
    let k ← e.1.jsonKey?
    return jsonString k ++ ": " ++ e.2
  return mapText members

mutual

/-- The JSON text of a value, if its mappings have proper keys. -/
def json? : Value → Option String
  | .nothing => some "null"
  | .bool b => some (if b then "true" else "false")
  | .int n => some (Numeral.text n)
  | .float x => some (jsonFloat x)
  | .str s => some (jsonString s)
  | .list items => (jsonItems? items).map fun ts => "[" ++ ", ".intercalate ts ++ "]"
  | .tuple items => (jsonItems? items).map fun ts => "[" ++ ", ".intercalate ts ++ "]"
  | .map entries => (jsonEntries? entries).bind jsonObject?
  | v => some (jsonString v.display)

def jsonItems? : List Value → Option (List String)
  | [] => some []
  | v :: rest => do return (← json? v) :: (← jsonItems? rest)

def jsonEntries? : List (Value × Value) → Option (List (Value × String))
  | [] => some []
  | (k, v) :: rest => do return (k, ← json? v) :: (← jsonEntries? rest)

end

/-- A size without the snapshot that it carries. -/
def withoutSnapshot : Value → Value
  | .map entries => .map (Mapping.erase entries "original")
  | v => v

def description (v : Value) : String :=
  v.withoutSnapshot.json?.getD v.withoutSnapshot.quoted

end ImageSizing.Value
