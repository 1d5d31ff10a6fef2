/-
# The program

The command line is read, and what it asks for is carried out on the real surroundings: files,
the streams of the program, and its clock.  Engines run in other processes, which cannot be
started from here; a command that needs one fails at that point.
-/
import Concolic.CommandLine.Command
import Std.Time.Format

namespace Concolic.Program

/-- The cause of a failed operation. -/
def faultOf : IO.Error → SystemFault
  | .noFileOrDirectory .. => .notFound
  | .noSuchThing .. => .notFound
  | .alreadyExists .. => .alreadyExists
  | .inappropriateType _ code _ => if code = 20 then .notADirectory else .isADirectory
  | e => .other (toString e)

/-- The result of an operation, or the cause why it failed. -/
def attempt {α : Type} (x : IO α) : IO (Except SystemFault α) := do
  try
    let a ← x
    pure (.ok a)
  catch e => pure (.error (faultOf e))

/-- The path as the system takes it. -/
def native (path : Path) := IO.FS.DirEntry.root ⟨path.display, ""⟩

/-- Does something of a type stand at a path? -/
def standsAt (wanted : IO.FS.FileType) (path : Path) : IO Bool := do
  match ← attempt (native path).metadata with
  | .ok found => pure (found.type == wanted)
  | .error _ => pure false

/-- The content of a file. -/
def readFile (path : Path) : IO Bytes := do
  let content ← IO.FS.readBinFile (native path)
  pure content.data.toList

/-- Puts a content into a file. -/
def writeFile (path : Path) (content : Bytes) : IO Unit :=
  IO.FS.writeBinFile (native path) ⟨content.toArray⟩

/-- Does something with files. -/
def fileAnswer : (op : FileOperation) → IO op.Answer
  | .isFile path => standsAt .file path
  | .isDirectory path => standsAt .dir path
  | .read path => attempt (readFile path)
  | .list path => attempt do
    let entries ← (native path).readDir
    pure (entries.toList.map fun entry => Utf8.encode entry.fileName)
  | .makeDirectories path => attempt (IO.FS.createDirAll (native path))
  | .create path => attempt (writeFile path [])
  | .write path content => attempt (writeFile path content)
  | .copy source target => attempt do
    let content ← readFile source
    writeFile target content

/-- The present time as part of a name. -/
def stamp : IO String := do
  let now ← Std.Time.PlainDateTime.now
  pure (now.format "uuuu-MM-dd_HH-mm-ss")

/-- Does one thing that is asked for. -/
def answer (filter : Log.Filter) : (op : Operation Nat Nat) → IO op.Answer
  | .file op => fileAnswer op
  | .launch command =>
    pure (.error (.engine (.spawn command.program (.other "no processes can be started"))))
  | .ask _ => pure (.error .closed)
  | .close => pure ()
  | .tell event => do
    if filter.shows event then
      let time ← stamp
      IO.eprintln s!"{time} {event.terminalLine}"
  | .print text => IO.print text
  | .stamp => stamp

/-- Carries an action out. -/
def carryOut {α : Type} (filter : Log.Filter) : Action Nat Nat α → IO α
  | .done a => pure a
  | .step op next => do
    let found ← answer filter op
    carryOut filter (next found)

/-- Carries a command line out. -/
def run (arguments : List String) : IO CommandLine.ExitStatus := do
  match CommandLine.Invocation.parse arguments with
  | .error .help => do
    IO.print CommandLine.helpText
    pure .success
  | .error .version => do
    IO.print CommandLine.versionText
    pure .success
  | .error (.misuse m) => do
    IO.eprintln s!"error: {m.message}"
    pure .misused
  | .ok invocation => do
    let given ← IO.getEnv "RUST_LOG"
    match CommandLine.logFilter? invocation.isVerbose given with
    | none => pure .aborted
    | some filter => carryOut filter (CommandLine.execute invocation.command)

end Concolic.Program

/-- The program. -/
def main (arguments : List String) : IO UInt32 := do
  let status ← Concolic.Program.run arguments
  pure (UInt32.ofNat status.code)
