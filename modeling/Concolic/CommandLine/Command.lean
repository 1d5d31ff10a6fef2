/-
# Commands

What is asked for on a command line is carried out: settings are resolved, documents are
worked on, and what has been done is printed.  A failure is logged with the circumstances in
which it arose and all that lies behind it.
-/
import Concolic.CommandLine.Arguments
import Concolic.Log.Filter
import Concolic.Record.Printer
import Concolic.Record.Reader
import Concolic.Run.Batch
import Concolic.Settings.Document

namespace Concolic.CommandLine

/-- The version of the program. -/
def version : String := "0.1.0"

/-- The line that shows the version. -/
def versionText : String := s!"ctc {version}\n"

/-- What can be asked for. -/
def helpText : String :=
  "Concolic test-case generator\n\n"
    ++ "Usage: ctc [OPTIONS] <CONFIG>\n       ctc [OPTIONS] --batch <DIR>\n"
    ++ "       ctc inspect <FILE>\n\n"
    ++ "Options:\n"
    ++ "  -b, --batch <DIR>       Process every *.xml document of a directory\n"
    ++ "      --engine <CMD>      Engine bridge command\n"
    ++ "      --engine-arg <ARG>  Argument passed to the engine bridge (repeatable)\n"
    ++ "      --policy <POLICY>   single-fork or timeout\n"
    ++ "      --timeout-secs <N>  Budget for the timeout policy\n"
    ++ "      --out-dir <DIR>     Directory the run directory is created in\n"
    ++ "  -j, --jobs <N>          Targets processed in parallel in batch mode\n"
    ++ "      --settings <FILE>   TOML settings file\n"
    ++ "  -v, --verbose           Debug logging\n"
    ++ "  -h, --help              Print help\n"
    ++ "  -V, --version           Print version\n"

/-- How the program ends. -/
inductive ExitStatus where
  /-- All that was asked for has been done. -/
  | success
  /-- Something has not been done. -/
  | failure
  /-- The command line could not be understood. -/
  | misused
  /-- Nothing has been begun, since the filter of the surroundings cannot be taken apart. -/
  | aborted
  deriving DecidableEq, Repr

/-- The number that tells how the program ended. -/
def ExitStatus.code : ExitStatus → Nat
  | .success => 0
  | .failure => 1
  | .misused => 2
  | .aborted => 101

/-- Why a command fails. -/
inductive Failure where
  /-- A run fails. -/
  | run (cause : RunError)
  /-- The configuration of a document cannot be loaded. -/
  | loading (document : Path) (cause : RunError)
  /-- The work on a document fails. -/
  | processing (document : Path) (cause : RunError)
  /-- A test case cannot be read. -/
  | reading (file : Path) (fault : SystemFault)
  /-- A file holds no test case. -/
  | decoding (file : Path) (cause : Record.Error)
  /-- No engine is named for a batch. -/
  | noEngine
  deriving DecidableEq, Repr

namespace Failure

/-- The wordings of a failure and of all that lies behind it, the outermost first. -/
def chain : Failure → List String
  | .run cause => cause.message :: cause.sources
  | .loading document cause =>
    s!"failed to load {document.display}" :: cause.message :: cause.sources
  | .processing document cause =>
    s!"failed to process {document.display}" :: cause.message :: cause.sources
  | .reading file fault => [s!"failed to read {file.display}", fault.message]
  | .decoding file cause =>
    s!"{file.display} is not a valid test case" :: cause.message :: cause.sources
  | .noEngine => [InputFault.noEngine.message]

/-- The wording of a failure. -/
def message (f : Failure) : String := ": ".intercalate f.chain

end Failure

variable {P S α : Type}

/-- A command, which can fail. -/
abbrev Task (P S : Type) := ExceptT Failure (Action P S)

/-- Work as part of a command, its error being a failure in some circumstances. -/
def within (toFailure : RunError → Failure) (w : Work P S α) : Task P S α := ExceptT.mk do
  match ← w.run with
  | .ok a => pure (.ok a)
  | .error e => pure (.error (toFailure e))

/-- The settings of a call: those of the file, if one is named, and what takes their place.
They must be valid before and after. -/
def resolve (settings : Option Path) (overrides : Overrides) : Work P S Settings := do
  let base ← match settings with
    | some path => Settings.load path
    | none => pure .default
  let s := base.override overrides
  Work.orFail .input s.validate
  pure s

/-- The command that starts the engine, which must be set. -/
def engineCommand (s : Settings) : Except InputFault EngineCommand :=
  match s.engineCommand? with
  | some command => .ok command
  | none => .error .noEngine

/-- The line about a document that was worked on alone. -/
def documentLine (r : TargetReport) : String :=
  s!"{r.document.display}: {r.testCases.length} test case(s) in {r.outputDirectory.display}"

/-- Works on one document.  The output directory is made once the engine has been started. -/
def generateOne (s : Settings) (document : Path) : Task P S ExitStatus := do
  let c ← within (.loading document) (loadConfiguration document)
  let command ← within .run (Work.orFail .input (engineCommand s))
  let made ← within .run (Work.withEngine command (attempt c))
  let report ← within (.processing document) (Work.orFail id made)
  within .run (Work.printLine (documentLine report))
  pure .success
where
  /-- Makes the output directory and tries the work on the document. -/
  attempt (c : Configuration) : Work P S (Except RunError TargetReport) := do
    let directory ← RunDirectory.makeIn s.outputParent
    ExceptT.lift (process s.policy directory document c).run

/-- The lines about a batch: the documents that were worked on, those that failed, and how many
there were of each kind. -/
def batchLines (root : Path) (r : BatchReport) : List String :=
  r.succeeded.map (fun t => s!"{t.document.display}: {t.testCases.length} test case(s)")
    ++ r.failed.map (fun x => s!"{x.1.display}: FAILED ({x.2.message})")
    ++ [s!"{r.succeeded.length} processed, {r.failed.length} failed, {r.skipped.length} skipped, "
      ++ s!"{r.testCasesWritten} test case(s) in {root.display}"]

/-- Works on the documents of a directory. -/
def generateBatch (s : Settings) (directory : Path) : Task P S ExitStatus := do
  let found ← within .run (discover directory)
  match s.engineCommand? with
  | none => throw .noEngine
  | some command => within .run do
    let r ← RunDirectory.makeIn s.outputParent
    let report ← processBatch command s.policy s.jobs r found
    (batchLines r.root report).forM Work.printLine
    pure (if report.allSucceeded then .success else .failure)

/-- Shows a test case. -/
def inspect (file : Path) : Task P S ExitStatus := do
  let read ← within .run (Work.readFile file)
  match read with
  | .error fault => throw (.reading file fault)
  | .ok bytes =>
    match TestCase.decode bytes with
    | .error cause => throw (.decoding file cause)
    | .ok testCase => within .run do
      Work.print s!"{file.display}: {testCase.display}"
      pure .success

/-- Carries out what is asked for. -/
def perform : Command → Task P S ExitStatus
  | .inspect file => inspect file
  | .generate target settings overrides => do
    let s ← within .run (resolve settings overrides)
    match target with
    | .document path => generateOne s path
    | .batch directory => generateBatch s directory

/-- Carries out what is asked for, and logs why it fails if it does. -/
def execute (c : Command) : Action P S ExitStatus := do
  match ← (perform c).run with
  | .ok status => pure status
  | .error failure => do
    Action.ask (.tell ⟨.error, .command, failure.message⟩)
    pure .failure

/-- Which events are shown: those that a filter of the surroundings lets through, if there is a
filter that can be understood, and otherwise all but the details, or these as well.  There is
no answer if the filter cannot even be taken apart. -/
def logFilter? (isVerbose : Bool) (given : Option String) : Option Log.Filter :=
  match given.map Log.Filter.parse with
  | some (.ok filter) => some filter
  | some (.error .severed) => none
  | _ => some (.ofLevel (if isVerbose then .debug else .info))

end Concolic.CommandLine
