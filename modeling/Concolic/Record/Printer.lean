/-
# Showing test cases

A test case is shown with a line for the number of its elements and a line for each element;
of a long value only the first bytes are shown.
-/
import Concolic.Record.Basic
import Concolic.Text.Hex

namespace Concolic.TestCase

/-- The number of bytes of a value that are shown. -/
def previewLength : Nat := 32

/-- The line of an element. -/
def elementLine (e : Element) : String :=
  let mark := if previewLength < e.value.length then "..." else ""
  s!"  {e.name} ({e.value.length} bytes): {Hex.encode (e.value.take previewLength)}{mark}\n"

/-- The text of a test case. -/
def display (t : TestCase) : String :=
  s!"{t.size} element(s)\n" ++ String.join (t.elements.map elementLine)

end Concolic.TestCase
