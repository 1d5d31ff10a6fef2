/-
# How an engine fails

Two kinds of failures concern only the state that was asked about: there is no solution, or
the engine refuses the request.  All others concern the engine itself.
-/
import Concolic.FileTree.Fault
import Concolic.Text.Hex

namespace Concolic

/-- How a reply fails to be one. -/
inductive ReplyFault where
  /-- It does not have the form of a reply. -/
  | illFormed (detail : String)
  /-- Its bytes are not written as pairs of digits. -/
  | badBytes (fault : Hex.Error)
  deriving DecidableEq, Repr

/-- The wording of a fault of a reply. -/
def ReplyFault.message : ReplyFault → String
  | .illFormed detail => detail
  | .badBytes fault => s!"invalid hex payload: {fault.message}"

/-- Why an engine does not answer. -/
inductive EngineError where
  /-- It cannot be started. -/
  | spawn (command : String) (fault : SystemFault)
  /-- The stream to it or from it failed. -/
  | stream (fault : SystemFault)
  /-- What it says is no reply. -/
  | protocol (fault : ReplyFault)
  /-- It is gone. -/
  | closed
  /-- It refuses the request. -/
  | rejected (reason : String)
  /-- There is no solution for an unknown. -/
  | unsatisfiable (name : String)
  /-- It does not know the state or project. -/
  | unknownHandle (handle : Nat)
  deriving DecidableEq, Repr

namespace EngineError

/-- The wording of an error. -/
def message : EngineError → String
  | .spawn command fault => s!"failed to spawn engine bridge '{command}': {fault.message}"
  | .stream fault => s!"engine bridge io error: {fault.message}"
  | .protocol fault => s!"engine protocol error: {fault.message}"
  | .closed => "engine bridge closed the connection"
  | .rejected reason => s!"engine rejected request: {reason}"
  | .unsatisfiable name => s!"no concrete solution for '{name}'"
  | .unknownHandle handle => s!"unknown engine handle: {handle}"

/-- Does the failure concern only the state that was asked about? -/
def isOutcomeScoped : EngineError → Bool
  | .unsatisfiable _ => true
  | .rejected _ => true
  | _ => false

/-- The wordings of what lies behind an error. -/
def sources : EngineError → List String
  | .spawn _ fault => [fault.message]
  | .stream fault => [fault.message]
  | _ => []

end EngineError

end Concolic
