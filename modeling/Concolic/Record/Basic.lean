/-
# Test cases

A test case is a sequence of named values.  Its record, the form in which it is stored, is

* the number of elements,
* for every element the length of its name, its name, the length of its value, its value,

where every number is a signed one of 32 bits, the least significant byte first.
-/
import Concolic.Bytes.LittleEndian
import Concolic.FileTree.Fault
import Concolic.Text.Utf8

namespace Concolic

/-- A named value. -/
structure Element where
  /-- The name of the input that the value is for. -/
  name : String
  /-- The value. -/
  value : Bytes
  deriving DecidableEq, Repr

/-- A sequence of named values. -/
structure TestCase where
  /-- The elements in their order. -/
  elements : List Element
  deriving DecidableEq, Repr

namespace TestCase

/-- The value of the first element of a name. -/
def get? (t : TestCase) (name : String) : Option Bytes :=
  (t.elements.find? fun e => e.name = name).map Element.value

/-- The number of elements. -/
def size (t : TestCase) : Nat := t.elements.length

end TestCase

namespace Record

/-- The largest number that a length or count can be. -/
def limit : Nat := 2147483647

/-- The parts of a record. -/
inductive Field where
  /-- The number of elements. -/
  | elementCount
  /-- The length of a name. -/
  | nameLength
  /-- A name. -/
  | name
  /-- The length of a value. -/
  | valueLength
  /-- A value. -/
  | value
  deriving DecidableEq, Repr

/-- How a message calls a part. -/
def Field.label : Field → String
  | .elementCount => "element count"
  | .nameLength => "name length"
  | .name => "name"
  | .valueLength => "value length"
  | .value => "value"

/-- Why a record cannot be read or written. -/
inductive Error where
  /-- The stream failed. -/
  | stream (fault : SystemFault)
  /-- The input ends inside a part. -/
  | truncated (field : Field) (expected found : Nat)
  /-- A length or count is negative. -/
  | negative (field : Field) (value : Int)
  /-- A name, a value or the sequence itself is longer than a length can say. -/
  | overflow (field : Field) (length : Nat)
  /-- A name is no text. -/
  | invalidName (fault : Utf8.Fault)
  /-- Bytes follow the last element. -/
  | trailing (count : Nat)
  deriving DecidableEq, Repr

/-- The wording of an error. -/
def Error.message : Error → String
  | .stream fault => s!"io error: {fault.message}"
  | .truncated field expected found =>
    s!"truncated record: expected {expected} bytes of {field.label}, found {found}"
  | .negative field value => s!"negative {field.label}: {value}"
  | .overflow field length => s!"{field.label} of {length} bytes exceeds the 32-bit wire limit"
  | .invalidName fault => s!"element name is not valid UTF-8: {fault.message}"
  | .trailing count => s!"{count} trailing bytes after the last element"

/-- The four bytes of a length or count. -/
def number (n : Nat) : Bytes := Bytes.ofNat 4 n

end Record

end Concolic
