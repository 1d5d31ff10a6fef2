/-
# What is wrong with a configuration

A document or program may be missing, a document may not say what it should, and what it says
may be nothing that can be run.
-/
import Concolic.Configuration.Input
import Concolic.FileTree.Fault
import Concolic.Record.Basic

namespace Concolic.Configuration

/-- What a configuration needs to find on disk. -/
inductive Needed where
  /-- The document itself. -/
  | document
  /-- The program to be run. -/
  | executable
  deriving DecidableEq, Repr

/-- How a message calls what is needed. -/
def Needed.label : Needed → String
  | .document => "configuration document"
  | .executable => "target executable"

/-- How a document fails to say what it should. -/
inductive Malformation where
  /-- It is no XML document. -/
  | notWellFormed (detail : String)
  /-- It names no program. -/
  | missingExecutable
  /-- The name of the program is blank. -/
  | emptyExecutable
  /-- An element lacks an attribute that it must have. -/
  | missingAttribute (element key : String)
  /-- An attribute holds no number. -/
  | notANumber (element key raw : String)
  /-- The attribute that marks symbolic inputs holds neither of the two words. -/
  | notAFlag (element raw : String)
  /-- A fault of another origin, with its wording. -/
  | other (text : String)
  deriving DecidableEq, Repr

/-- The wording of a malformation. -/
def Malformation.message : Malformation → String
  | .notWellFormed detail => s!"not well-formed XML: {detail}"
  | .missingExecutable => "missing <exec> element"
  | .emptyExecutable => "<exec> element is empty"
  | .missingAttribute element key => s!"<{element}> is missing attribute '{key}'"
  | .notANumber element key raw =>
    s!"<{element}> attribute '{key}' is not a non-negative integer: '{raw}'"
  | .notAFlag element raw =>
    s!"<{element}> attribute 'concolic' must be \"true\" or \"false\", got '{raw}'"
  | .other text => text

/-- How declared inputs fail to make up something that can be run. -/
inductive Violation where
  /-- An input is not of the kind that is wanted. -/
  | wrongKind (name : String) (wanted : InputKind)
  /-- Position zero belongs to the program. -/
  | reservedIndex
  /-- A position is taken. -/
  | duplicateIndex (index : Nat)
  /-- A position is negative. -/
  | negativeIndex (index : Int)
  /-- A path is taken. -/
  | duplicateFile (path : String)
  /-- There is a standard input already. -/
  | duplicateStandardInput
  /-- A symbolic argument has no width. -/
  | emptySymbolic (name : String)
  /-- A file is marked as not to be found. -/
  | concreteFile (path : String)
  /-- A file has no width. -/
  | emptyFile (path : String)
  /-- The standard input is marked as not to be found. -/
  | concreteStandardInput
  /-- There are several standard inputs. -/
  | tooManyStandardInputs (count : Nat)
  /-- An input is wider than a record can hold. -/
  | tooWide (name : String) (size : Nat)
  /-- A fault of another origin, with its wording. -/
  | other (text : String)
  deriving DecidableEq, Repr

/-- The name of a kind in a message about it. -/
def kindPhrase : InputKind → String
  | .argument => "an argument"
  | .file => "a file"
  | .standardInput => "a stdin"

/-- The wording of a violation. -/
def Violation.message : Violation → String
  | .wrongKind name wanted => s!"'{name}' is not {kindPhrase wanted} declaration"
  | .reservedIndex => "argument index 0 is reserved for the target executable"
  | .duplicateIndex index => s!"argument index {index} declared more than once"
  | .negativeIndex index => s!"argument index {index} is out of range"
  | .duplicateFile path => s!"file '{path}' declared more than once"
  | .duplicateStandardInput => "more than one stdin declared"
  | .emptySymbolic name => s!"symbolic argument {name} has neither a size nor a value"
  | .concreteFile path => s!"non-concolic file given: {path}"
  | .emptyFile path => s!"concolic file {path} has size 0"
  | .concreteStandardInput => "non-concolic stdin given"
  | .tooManyStandardInputs count => s!"{count} stdin elements given, at most one is allowed"
  | .tooWide name size => s!"{name} is {size} bytes wide, the limit is {Record.limit} bytes"
  | .other text => text

/-- What is wrong with a configuration. -/
inductive Error where
  /-- Something is not there. -/
  | notFound (what : Needed) (path : Path)
  /-- The document does not say what it should. -/
  | malformed (cause : Malformation)
  /-- What it says cannot be run. -/
  | invalid (cause : Violation)
  /-- The document cannot be read. -/
  | unreadable (path : Path) (fault : SystemFault)
  deriving DecidableEq, Repr

namespace Error

/-- The wording of an error. -/
def message : Error → String
  | .notFound what path => s!"{what.label} not found: {path.display}"
  | .malformed cause => s!"malformed configuration: {cause.message}"
  | .invalid cause => s!"invalid configuration: {cause.message}"
  | .unreadable path fault => s!"io error reading {path.display}: {fault.message}"

/-- Is something missing? -/
def isNotFound : Error → Bool
  | .notFound .. => true
  | _ => false

end Error

end Concolic.Configuration
