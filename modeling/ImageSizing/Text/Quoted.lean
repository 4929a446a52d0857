import ImageSizing.Text.Printable

/-!
# Quoted text

Text as messages quote it.  Single quotes surround it unless it holds a single quote and no
double one.  The backslash, the chosen quote and the line and tab controls are written with
a backslash; other characters that are not printable by their code point in two, four or
eight hexadecimal digits.  The ASCII form writes every character beyond ASCII so.
-/

namespace ImageSizing.Text

/-- The code of a character in at least `width` lower-case hexadecimal digits. -/
def hex (width n : Nat) : List Char :=
  List.replicate (width - (Nat.toDigits 16 n).length) '0' ++ Nat.toDigits 16 n

/-- A character written by its code point. -/
def escapeCode (c : Char) : List Char :=
  if c.toNat < 0x100 then ['\\', 'x'] ++ hex 2 c.toNat
  else if c.toNat < 0x10000 then ['\\', 'u'] ++ hex 4 c.toNat
  else ['\\', 'U'] ++ hex 8 c.toNat

/-- One character between quotes; `shown` says which characters stand for themselves. -/
def quoteChar (shown : Char → Bool) (quote : Char) (c : Char) : List Char :=
  if c = quote || c = '\\' then ['\\', c]
  else if c = '\n' then ['\\', 'n']
  else if c = '\r' then ['\\', 'r']
  else if c = '\t' then ['\\', 't']
  else if shown c then [c]
  else escapeCode c

/-- The quote that surrounds a text. -/
def quoteFor (cs : List Char) : Char :=
  if cs.contains '\x27' && !cs.contains '\x22' then '\x22' else '\x27'

def quoteWith (shown : Char → Bool) (s : String) : String :=
  let quote := quoteFor s.toList
  String.ofList (quote :: s.toList.flatMap (quoteChar shown quote) ++ [quote])

/-- A text between quotes, printable characters shown. -/
def quote (s : String) : String := quoteWith isPrintable s

/-- A text that was quoted already, with every character beyond ASCII written by its code. -/
def asciiOnly (s : String) : String :=
  String.ofList (s.toList.flatMap fun c => if c.toNat < 128 then [c] else escapeCode c)

end ImageSizing.Text
