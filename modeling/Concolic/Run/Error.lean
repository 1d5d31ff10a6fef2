/-
# How a run fails

A run fails because of its configuration, its engine, the record of a test case, a file, or
because it was asked for something that makes no sense.
-/
import Concolic.Binding
import Concolic.Engine.Error
import Concolic.Record.Basic

namespace Concolic

/-- How a request makes no sense. -/
inductive InputFault where
  /-- The inputs of a batch are looked for in something else than a directory. -/
  | notADirectory (path : Path)
  /-- A policy has another name. -/
  | unknownPolicy (word : String)
  /-- Nothing can be done at the same time. -/
  | noJobs
  /-- A timeout has no time. -/
  | noBudget
  /-- No engine is named. -/
  | noEngine
  /-- Settings are not written as they should be. -/
  | illFormedSettings (detail : String)
  /-- The fault lies in a file. -/
  | inFile (path : Path) (fault : InputFault)
  /-- A fault of another origin, with its wording. -/
  | other (text : String)
  deriving DecidableEq, Repr

/-- The wording of a fault in a request. -/
def InputFault.message : InputFault → String
  | .notADirectory path => s!"'{path.display}' is not a directory"
  | .unknownPolicy word =>
    s!"unknown exploration policy '{word}', expected 'single-fork' or 'timeout'"
  | .noJobs => "jobs must be at least 1"
  | .noBudget => "timeout policy needs a budget of at least 1 second"
  | .noEngine => "no engine bridge configured, pass --engine or set [engine] command"
  | .illFormedSettings detail => s!"TOML parse error: {detail}"
  | .inFile path fault => s!"{path.display}: invalid input: {fault.message}"
  | .other text => text

/-- Why a run fails. -/
inductive RunError where
  /-- The configuration cannot be had. -/
  | configuration (cause : Configuration.Error)
  /-- The inputs cannot be bound. -/
  | binding (cause : BindingGap)
  /-- The engine fails. -/
  | engine (cause : EngineError)
  /-- A test case cannot be written. -/
  | record (cause : Record.Error)
  /-- A file cannot be read or made. -/
  | file (path : Path) (fault : SystemFault)
  /-- The request makes no sense. -/
  | input (fault : InputFault)
  deriving DecidableEq, Repr

namespace RunError

/-- The wording of an error. -/
def message : RunError → String
  | .configuration cause => cause.message
  | .binding cause => cause.message
  | .engine cause => cause.message
  | .record cause => s!"failed to write test case: {cause.message}"
  | .file path fault => s!"io error at {path.display}: {fault.message}"
  | .input fault => s!"invalid input: {fault.message}"

/-- Is the configuration to blame? -/
def isConfigurationError : RunError → Bool
  | .configuration _ => true
  | .binding _ => true
  | _ => false

end RunError

/-- The wordings of what lies behind an error of a record. -/
def Record.Error.sources : Record.Error → List String
  | .stream fault => [fault.message]
  | .invalidName fault => [fault.message]
  | _ => []

/-- The wordings of what lies behind an error of a configuration. -/
def Configuration.Error.sources : Configuration.Error → List String
  | .unreadable _ fault => [fault.message]
  | _ => []

/-- The wordings of what lies behind an error of a run. -/
def RunError.sources : RunError → List String
  | .configuration cause => cause.sources
  | .binding _ => []
  | .engine cause => cause.sources
  | .record cause => cause.message :: cause.sources
  | .file _ fault => [fault.message]
  | .input _ => []

end Concolic
