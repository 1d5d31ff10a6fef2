/-
# Writing records

A writer puts a record on a medium from the position where it finds it.  The number of
elements is not known beforehand: zero stands in its place until the last element has been
written, and only then the number itself.
-/
import Concolic.Record.Basic
import Concolic.Record.Medium

namespace Concolic.Record

/-- A record that is being written. -/
structure Writer where
  /-- What it is written to. -/
  medium : Medium
  /-- The position where the record starts. -/
  start : Nat
  /-- The number of elements written so far. -/
  count : Nat
  deriving Repr

/-- The outcome of an operation on a medium as one on a record. -/
def ofMedium : Except SystemFault Unit → Except Error Unit
  | .ok _ => .ok ()
  | .error fault => .error (.stream fault)

namespace Writer

/-- Starts a record at the position of a medium. -/
def begin (m : Medium) : Except Error Unit × Writer :=
  let (result, after) := m.write (number 0)
  (ofMedium result, ⟨after, m.position, 0⟩)

/-- The first part of an element that is too long, if one is. -/
def tooLong? (w : Writer) (name value : Bytes) : Option Error :=
  if limit < name.length then some (.overflow .name name.length)
  else if limit < value.length then some (.overflow .value value.length)
  else if limit < w.count + 1 then some (.overflow .elementCount (w.count + 1))
  else none

/-- Writes one element.  An element that is too long is refused before anything is written;
one that does not fit is left cut. -/
def element (w : Writer) (name value : Bytes) : Except Error Unit × Writer :=
  match w.tooLong? name value with
  | some e => (.error e, w)
  | none =>
    match w.medium.writeAll [number name.length, name, number value.length, value] with
    | (.ok _, m) => (.ok (), { w with medium := m, count := w.count + 1 })
    | (.error fault, m) => (.error (.stream fault), { w with medium := m })

/-- Puts the number of elements in its place and returns to the end of the record. -/
def finish (w : Writer) : Except Error Unit × Medium :=
  if limit < w.count then (.error (.overflow .elementCount w.count), w.medium)
  else
    let (result, m) := (w.medium.seek w.start).write (number w.count)
    match result with
    | .ok _ => (.ok (), m.seek w.medium.position)
    | .error fault => (.error (.stream fault), m)

/-- Writes elements until one fails. -/
def elements (w : Writer) : List Element → Except Error Unit × Writer
  | [] => (.ok (), w)
  | e :: rest =>
    match w.element (Utf8.encode e.name) e.value with
    | (.ok _, w') => w'.elements rest
    | (.error err, w') => (.error err, w')

end Writer

end Concolic.Record

namespace Concolic.TestCase

/-- Writes the record of a test case to a medium. -/
def writeTo (t : TestCase) (m : Medium) : Except Record.Error Unit × Medium :=
  match Record.Writer.begin m with
  | (.error e, w) => (.error e, w.medium)
  | (.ok _, w) =>
    match w.elements t.elements with
    | (.error e, w') => (.error e, w'.medium)
    | (.ok _, w') => w'.finish

/-- The record of a test case. -/
def encode (t : TestCase) : Except Record.Error Bytes :=
  match t.writeTo .empty with
  | (.ok _, m) => .ok m.content
  | (.error e, _) => .error e

end Concolic.TestCase
