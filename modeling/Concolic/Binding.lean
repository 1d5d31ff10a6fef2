/-
# Bindings

Before a target is run its declared inputs are bound: the arguments, and after them the paths
of the files, make up the argument vector; the files and the standard input make up the table
of files that the engine simulates.  The positions of the arguments must leave no gap.
-/
import Concolic.Configuration.Basic
import Concolic.Log.Traced
import Concolic.Text.Quoted

namespace Concolic

/-- Bytes that an engine is to find: a name and a number of bytes. -/
structure Unknown where
  /-- The name by which the engine knows them. -/
  name : String
  /-- How many there are. -/
  width : Nat
  deriving DecidableEq, Repr

/-- An entry of the argument vector. -/
inductive Binding where
  /-- Bytes known beforehand. -/
  | concrete (bytes : Bytes)
  /-- Bytes to be found. -/
  | symbolic (unknown : Unknown)
  deriving DecidableEq, Repr

namespace Binding

/-- Is the entry to be found? -/
def isSymbolic : Binding → Bool
  | .concrete _ => false
  | .symbolic _ => true

/-- What is to be found in the entry. -/
def unknown? : Binding → Option Unknown
  | .concrete _ => none
  | .symbolic unknown => some unknown

/-- The entry as a message shows it. -/
def display : Binding → String
  | .concrete bytes => s!"Concrete({Text.quoted (Utf8.lossy bytes)})"
  | .symbolic unknown => s!"Symbolic({unknown.name}, {unknown.width} bytes)"

/-- The entry for a declared argument.  A concrete one is not padded to its width. -/
def ofArgument (a : Argument) : Binding :=
  match a.literal with
  | some bytes => .concrete bytes
  | none => .symbolic ⟨a.name, a.size⟩

end Binding

/-- A file that an engine simulates. -/
structure SimulatedFile where
  /-- The path under which the target opens it. -/
  path : String
  /-- Its content. -/
  content : Unknown
  deriving DecidableEq, Repr

/-- The simulated file for a declared one. -/
def InputFile.simulated (f : InputFile) : SimulatedFile := ⟨f.path, ⟨f.path, f.size⟩⟩

/-- The simulated file for a standard input of a width. -/
def SimulatedFile.standardInput (size : Nat) : SimulatedFile :=
  ⟨standardInputPath, ⟨standardInputName, size⟩⟩

/-- The bound inputs of a target. -/
structure BoundInputs where
  /-- The argument vector. -/
  arguments : List Binding
  /-- The simulated files. -/
  files : List SimulatedFile
  /-- The simulated standard input. -/
  standardInput : Option SimulatedFile
  deriving DecidableEq, Repr

namespace BoundInputs

/-- All simulated files, the standard input last. -/
def fileTable (b : BoundInputs) : List SimulatedFile := b.files ++ b.standardInput.toList

/-- What is to be found in the argument vector. -/
def unknownArguments (b : BoundInputs) : List Unknown := b.arguments.filterMap Binding.unknown?

end BoundInputs

/-- The position `missing` is the first that no argument is declared for. -/
structure BindingGap where
  /-- The position. -/
  missing : Nat
  deriving DecidableEq, Repr

/-- The wording of a gap. -/
def BindingGap.message (g : BindingGap) : String :=
  s!"incomplete argument list: {Argument.nameAt g.missing} not declared"

namespace Configuration

/-- The entries for the arguments, which must stand at the positions from `position` on. -/
def bindArguments (position : Nat) : List Argument → Except BindingGap (List Binding)
  | [] => .ok []
  | a :: rest =>
    if a.index = position then
      match bindArguments (position + 1) rest with
      | .ok bindings => .ok (Binding.ofArgument a :: bindings)
      | .error e => .error e
    else .error ⟨position⟩

/-- The bound inputs without the events. -/
def bound (c : Configuration) : Except BindingGap BoundInputs :=
  match bindArguments 0 c.arguments with
  | .error e => .error e
  | .ok bindings =>
    .ok ⟨bindings ++ c.files.map fun f => .concrete (Utf8.encode f.path),
      c.files.map InputFile.simulated, c.standardInput.map SimulatedFile.standardInput⟩

/-- What the binding tells: the paths that become arguments, then all arguments. -/
def bindingEvents (b : BoundInputs) : List Log.Event :=
  (b.files.map fun f => ⟨.debug, .binder, s!"appending file path '{f.path}' to argv"⟩)
    ++ b.arguments.map fun a => ⟨.debug, .binder, s!"argument binding: {a.display}"⟩

/-- The bound inputs of a configuration. -/
def bind (c : Configuration) : Traced BindingGap BoundInputs :=
  match c.bound with
  | .ok b => ⟨.ok b, bindingEvents b⟩
  | .error e => .fail e

end Configuration

end Concolic
