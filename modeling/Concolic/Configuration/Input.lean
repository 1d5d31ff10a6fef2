/-
# Declared inputs

A target reads arguments, files and its standard input.  An argument is concrete, with a
value known beforehand, or symbolic, with a value that an engine finds; a file and the
standard input are always found.  Each has a width in bytes.
-/
import Concolic.Path

namespace Concolic

/-- A positional argument. -/
structure Argument where
  /-- Its position; the program itself is at position zero. -/
  index : Nat
  /-- Its width. -/
  size : Nat
  /-- Its value, if it is concrete. -/
  literal : Option Bytes
  deriving DecidableEq, Repr

namespace Argument

/-- The name of the argument at a position. -/
def nameAt (index : Nat) : String := s!"argv_{index}"

/-- A concrete argument, at least as wide as its value. -/
def concrete (index : Nat) (value : Bytes) (size : Nat) : Argument :=
  ⟨index, max size value.length, some value⟩

/-- A symbolic argument, at least as wide as the value it would have by default. -/
def symbolic (index size : Nat) (byDefault : Bytes) : Argument :=
  ⟨index, max size byDefault.length, none⟩

/-- The name of an argument. -/
def name (a : Argument) : String := nameAt a.index

/-- Is the value of the argument to be found? -/
def isSymbolic (a : Argument) : Bool := a.literal.isNone

end Argument

/-- A file that the target reads. -/
structure InputFile where
  /-- Its path, as it is declared. -/
  path : String
  /-- Its width. -/
  size : Nat
  deriving DecidableEq, Repr

/-- The name of the file in a test case: the base name of its path, if it has one. -/
def InputFile.elementName (f : InputFile) : String :=
  match (Path.ofString f.path).fileName?.bind Utf8.decode? with
  | some name => name
  | none => f.path

/-- The name of the standard input. -/
def standardInputName : String := "crete-stdin"

/-- The path under which the target opens its standard input. -/
def standardInputPath : String := "/dev/stdin"

/-- The kinds of inputs. -/
inductive InputKind where
  /-- Positional arguments. -/
  | argument
  /-- Files. -/
  | file
  /-- The standard input. -/
  | standardInput
  deriving DecidableEq, Repr

/-- A declared input. -/
inductive Input where
  /-- A positional argument. -/
  | argument (a : Argument)
  /-- A file. -/
  | file (f : InputFile)
  /-- The standard input, with its width. -/
  | standardInput (size : Nat)
  deriving DecidableEq, Repr

namespace Input

/-- The kind of an input. -/
def kind : Input → InputKind
  | .argument _ => .argument
  | .file _ => .file
  | .standardInput _ => .standardInput

/-- The name of an input. -/
def name : Input → String
  | .argument a => a.name
  | .file f => f.path
  | .standardInput _ => standardInputName

/-- The width of an input. -/
def size : Input → Nat
  | .argument a => a.size
  | .file f => f.size
  | .standardInput size => size

/-- Is the value of the input to be found? -/
def isConcolic : Input → Bool
  | .argument a => a.isSymbolic
  | .file _ => true
  | .standardInput _ => true

/-- The value of a concrete input. -/
def literal? : Input → Option Bytes
  | .argument a => a.literal
  | .file _ => none
  | .standardInput _ => none

/-- The position of an argument. -/
def index? : Input → Option Nat
  | .argument a => some a.index
  | .file _ => none
  | .standardInput _ => none

/-- The name of the input in a test case. -/
def elementName : Input → String
  | .argument a => a.name
  | .file f => f.elementName
  | .standardInput _ => standardInputName

end Input

end Concolic
