/-
# Media

What a record is written to: a string of bytes with a position at which the next bytes go,
over those that are there.  A growing medium takes all that it is given; a fixed one takes
what fits and then fails.
-/
import Concolic.Bytes
import Concolic.FileTree.Fault

namespace Concolic

/-- Bytes under a writing position. -/
structure Medium where
  /-- The bytes. -/
  content : Bytes
  /-- Where the next bytes go. -/
  position : Nat
  /-- Must the length stay as it is? -/
  isFixed : Bool
  deriving DecidableEq, Repr

namespace Medium

/-- An empty growing medium. -/
def empty : Medium := ⟨[], 0, false⟩

/-- Writes bytes at the position and moves it behind them. -/
def write (m : Medium) (bytes : Bytes) : Except SystemFault Unit × Medium :=
  if m.isFixed then
    let taken := bytes.take (m.content.length - m.position)
    let after := if taken = [] then m else { m with
      content := m.content.splice m.position taken
      position := m.position + taken.length }
    (if taken.length = bytes.length then .ok () else .error .bufferFull, after)
  else
    (.ok (), { m with
      content := m.content.splice m.position bytes
      position := m.position + bytes.length })

/-- Writes strings of bytes one after the other until one does not fit. -/
def writeAll (m : Medium) : List Bytes → Except SystemFault Unit × Medium
  | [] => (.ok (), m)
  | bytes :: rest =>
    match m.write bytes with
    | (.ok _, m') => m'.writeAll rest
    | (.error e, m') => (.error e, m')

/-- The medium with its position moved. -/
def seek (m : Medium) (position : Nat) : Medium := { m with position := position }

end Medium

end Concolic
