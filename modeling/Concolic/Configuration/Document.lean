/-
# Configuration documents

A configuration is read from an XML document.  Elements count by their names wherever they
stand: the first `exec` names the program, each `arg` an argument, each `file` a file, and at
most one `stdin` the standard input.
-/
import Concolic.Configuration.Basic
import Concolic.Log.Traced
import Concolic.Text.Blank
import Concolic.Text.Numeral
import Concolic.Xml.Document

namespace Concolic.Configuration

open Xml (Node)

/-- A detail that the reader tells. -/
def detail (message : String) : Log.Event := ⟨.debug, .loader, message⟩

/-- The path of the program. -/
def executableOf (root : Node) : Except Error Path :=
  match root.elements "exec" with
  | [] => .error (.malformed .missingExecutable)
  | exec :: _ =>
    let text := Text.trim (exec.leadingText?.getD "")
    if text.isEmpty then .error (.malformed .emptyExecutable) else .ok (Path.ofString text)

/-- An attribute that must be there. -/
def required (n : Node) (element key : String) : Except Error String :=
  match n.attribute? key with
  | some value => .ok value
  | none => .error (.malformed (.missingAttribute element key))

/-- A number; a message shows it as it is given. -/
def number (element key raw : String) : Except Error Nat :=
  match Numeral.unsigned? (Text.trim raw).toList with
  | some n => .ok n
  | none => .error (.malformed (.notANumber element key raw))

/-- The mark of symbolic inputs. -/
def flag (element raw : String) : Except Error Bool :=
  match Text.trim raw with
  | "true" => .ok true
  | "false" => .ok false
  | word => .error (.malformed (.notAFlag element word))

/-- A position; a negative one is a number, but none that can be used. -/
def position (raw : String) : Except Error Nat :=
  match Numeral.signed? (Text.trim raw).toList with
  | some i => if i < 0 then .error (.invalid (.negativeIndex i)) else number "arg" "index" raw
  | none => number "arg" "index" raw

/-- An input that a record can hold. -/
def checkWidth (i : Input) : Except Error Input :=
  if Record.limit < i.size then .error (.invalid (.tooWide i.name i.size)) else .ok i

/-- The argument that an element declares.  A width that is left out or blank is that of the
value. -/
def argumentOf (n : Node) : Except Error Input := do
  let index ← position (← required n "arg" "index")
  let value := Utf8.encode ((n.attribute? "value").getD "")
  let size ← match (n.attribute? "size").map Text.trim with
    | none => .ok 0
    | some "" => .ok 0
    | some raw => number "arg" "size" raw
  let concolic ← match n.attribute? "concolic" with
    | none => .ok false
    | some raw => flag "arg" raw
  if index = 0 then .error (.invalid .reservedIndex)
  else if concolic then
    let a := Argument.symbolic index size value
    if a.size = 0 then .error (.invalid (.emptySymbolic a.name)) else checkWidth (.argument a)
  else checkWidth (.argument (.concrete index value size))

/-- The file that an element declares. -/
def fileOf (n : Node) : Except Error Input := do
  let path ← required n "file" "path"
  let size ← number "file" "size" (← required n "file" "size")
  let concolic ← flag "file" (← required n "file" "concolic")
  if !concolic then .error (.invalid (.concreteFile path))
  else if size = 0 then .error (.invalid (.emptyFile path))
  else checkWidth (.file ⟨path, size⟩)

/-- The standard input that an element declares; one without a width is none. -/
def standardInputOf (n : Node) : Except Error (Option Input) := do
  let size ← number "stdin" "size" (← required n "stdin" "size")
  let concolic ← flag "stdin" (← required n "stdin" "concolic")
  if !concolic then .error (.invalid .concreteStandardInput)
  else if size = 0 then .ok none
  else (checkWidth (.standardInput size)).map some

/-- Adds the argument that an element declares. -/
def declareArgument (c : Configuration) (n : Node) : Traced Error Configuration := do
  let i ← Traced.ofExcept (argumentOf n)
  let word := if i.isConcolic then "symbolic" else "concrete"
  Traced.tell (detail s!"{i.name}: {word} argument, size {i.size}")
  Traced.ofExcept (c.addArgument i)

/-- Adds the file that an element declares. -/
def declareFile (c : Configuration) (n : Node) : Traced Error Configuration := do
  let i ← Traced.ofExcept (fileOf n)
  Traced.tell (detail s!"concolic file: {i.name}, {i.size}")
  Traced.ofExcept (c.addFile i)

/-- Sets the standard input that the elements declare; there may be one at most. -/
def declareStandardInput (c : Configuration) : List Node → Traced Error Configuration
  | [] => pure c
  | [n] => do
    match ← Traced.ofExcept (standardInputOf n) with
    | some i => do
      Traced.tell (detail s!"stdin size from configuration: {i.size}")
      Traced.ofExcept (c.setStandardInput i)
    | none => do
      Traced.tell (detail "stdin declared with size 0, treated as absent")
      pure c
  | several => Traced.fail (.invalid (.tooManyStandardInputs several.length))

/-- The configuration of a program whose inputs a document declares. -/
def declareAll (executable : Path) (root : Node) : Traced Error Configuration := do
  let c ← (root.elements "arg").foldlM declareArgument (new executable)
  let c ← (root.elements "file").foldlM declareFile c
  declareStandardInput c (root.elements "stdin")

/-- The configuration that a document tree declares, given which regular files there are. -/
def ofTree (isFile : Path → Bool) (root : Node) : Traced Error Configuration := do
  let executable ← Traced.ofExcept (executableOf root)
  if isFile executable then do
    Traced.tell ⟨.info, .loader, s!"Target executable '{executable.display}'"⟩
    declareAll executable root
  else Traced.fail (.notFound .executable executable)

/-- The tree of a document. -/
def treeOf (document : String) : Except Error Node :=
  match Xml.parse document with
  | .ok root => .ok root
  | .error detail => .error (.malformed (.notWellFormed detail))

/-- The configuration that a document declares, given which regular files there are. -/
def ofDocument (isFile : Path → Bool) (document : String) : Traced Error Configuration := do
  let root ← Traced.ofExcept (treeOf document)
  ofTree isFile root

end Concolic.Configuration
