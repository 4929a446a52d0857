import ImageSizing.Value.Description
import ImageSizing.Failure

/-!
# Texts for messages

The texts of `Value.display`, `Value.quoted` and `Value.description`, refused for a value
that holds a whole number beyond the digit limit.
-/

namespace ImageSizing.Value

/-- The text of a value, text as it is. -/
def display? (v : Value) : Except Fault String :=
  if v.printable then .ok v.display else .error .numberTooLong

/-- The text of a value, text in quotes. -/
def quoted? (v : Value) : Except Fault String :=
  if v.printable then .ok v.quoted else .error .numberTooLong

def description? (v : Value) : Except Fault String :=
  if v.withoutSnapshot.printable then .ok v.description else .error .numberTooLong

end ImageSizing.Value
