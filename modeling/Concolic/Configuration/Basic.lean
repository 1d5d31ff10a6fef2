/-
# Configurations

A configuration is the program to be run and the inputs declared for it.  Inputs are added
one at a time, and one that does not fit is refused: a position or path can be taken only
once, there is at most one standard input, and position zero belongs to the program.
Arguments are kept in the order of their positions, files in the order of declaration.
-/
import Concolic.Configuration.Error

namespace Concolic

/-- A program and its declared inputs. -/
structure Configuration where
  /-- The program to be run. -/
  executable : Path
  /-- Its arguments, by increasing position. -/
  arguments : List Argument
  /-- Its files, in the order of declaration. -/
  files : List InputFile
  /-- The width of its standard input, if it has one. -/
  standardInput : Option Nat
  deriving DecidableEq, Repr

namespace Configuration

/-- The configuration of a program without further inputs: its first argument is its own
path. -/
def new (executable : Path) : Configuration where
  executable := executable
  arguments := [.concrete 0 (Utf8.encode executable.display) 0]
  files := []
  standardInput := none

/-- The arguments with one more at its place among them.  They stand in the order of their
positions, and the place is in front of the first larger one, which is where a binary search for
the new position ends. -/
def insertArgument (a : Argument) : List Argument → List Argument
  | [] => [a]
  | b :: rest => if a.index < b.index then a :: b :: rest else b :: insertArgument a rest

/-- Adds an argument, unless a search finds another one at its position. -/
def addArgument (c : Configuration) : Input → Except Error Configuration
  | .argument a =>
    if a.index = 0 then .error (.invalid .reservedIndex)
    else if c.arguments.any (·.index = a.index) then .error (.invalid (.duplicateIndex a.index))
    else .ok { c with arguments := insertArgument a c.arguments }
  | i => .error (.invalid (.wrongKind i.name .argument))

/-- Adds a file. -/
def addFile (c : Configuration) : Input → Except Error Configuration
  | .file f =>
    if c.files.any (·.path = f.path) then .error (.invalid (.duplicateFile f.path))
    else .ok { c with files := c.files ++ [f] }
  | i => .error (.invalid (.wrongKind i.name .file))

/-- Sets the standard input. -/
def setStandardInput (c : Configuration) : Input → Except Error Configuration
  | .standardInput size =>
    if c.standardInput.isSome then .error (.invalid .duplicateStandardInput)
    else .ok { c with standardInput := some size }
  | i => .error (.invalid (.wrongKind i.name .standardInput))

/-- The symbolic arguments, by increasing position. -/
def symbolicArguments (c : Configuration) : List Argument := c.arguments.filter Argument.isSymbolic

/-- The number of inputs whose values are to be found. -/
def concolicCount (c : Configuration) : Nat :=
  c.symbolicArguments.length + c.files.length + c.standardInput.toList.length

end Configuration

end Concolic
