/-
# Reading records

A record is read part by part, and each part is checked as it is read; what follows the last
element is no part of a record.
-/
import Concolic.Record.Basic
import Concolic.Record.Source

namespace Concolic.Record

/-- A step of reading: it draws from a source and may refuse what it finds. -/
abbrev Reading (ρ : Type) := StateT ρ (Except Error)

variable {ρ : Type} [Source ρ]

/-- The outcome of drawing from a source as a step of reading. -/
def drawn (outcome : Except SystemFault Bytes × ρ) : Except Error (Bytes × ρ) :=
  match outcome with
  | (.ok bytes, s) => .ok (bytes, s)
  | (.error fault, _) => .error (.stream fault)

/-- Reads exactly `length` bytes. -/
def readBytes (field : Field) (length : Nat) : Reading ρ Bytes := fun s =>
  match drawn (Source.draw length s) with
  | .error e => .error e
  | .ok (bytes, s') =>
    if bytes.length = length then .ok (bytes, s')
    else .error (.truncated field length bytes.length)

/-- Reads a length or count. -/
def readNumber (field : Field) : Reading ρ Nat := do
  let bytes ← readBytes field 4
  match Bytes.toInt bytes with
  | .ofNat n => pure n
  | .negSucc n => throw (.negative field (.negSucc n))

/-- Reads a name. -/
def readName (length : Nat) : Reading ρ String := do
  let bytes ← readBytes .name length
  match Utf8.decode? bytes, Utf8.firstFault bytes with
  | some name, _ => pure name
  | none, some fault => throw (.invalidName fault)
  | none, none => throw (.invalidName ⟨bytes.length, none⟩)

/-- Reads one element. -/
def readElement : Reading ρ Element := do
  let nameLength ← readNumber .nameLength
  let name ← readName nameLength
  let valueLength ← readNumber .valueLength
  let value ← readBytes .value valueLength
  pure ⟨name, value⟩

/-- Reads `count` elements. -/
def readElements : Nat → Reading ρ (List Element)
  | 0 => pure []
  | count + 1 => do
    let e ← readElement
    let rest ← readElements count
    pure (e :: rest)

/-- Sees to it that nothing is left. -/
def readEnd : Reading ρ Unit := fun s =>
  match drawn (Source.drain s) with
  | .error e => .error e
  | .ok (rest, s') => if rest.isEmpty then .ok ((), s') else .error (.trailing rest.length)

/-- Reads a whole record. -/
def readTestCase : Reading ρ TestCase := do
  let count ← readNumber .elementCount
  let elements ← readElements count
  readEnd
  pure ⟨elements⟩

end Concolic.Record

namespace Concolic.TestCase

/-- The test case whose record the source holds. -/
def readFrom {ρ : Type} [Source ρ] (s : ρ) : Except Record.Error TestCase :=
  (Record.readTestCase.run s).map Prod.fst

/-- The test case with the given record. -/
def decode (b : Bytes) : Except Record.Error TestCase := readFrom b

end Concolic.TestCase
