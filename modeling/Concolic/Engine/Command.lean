/-
# Commands that start engines

An engine in another process is started by a program name and its arguments.
-/

namespace Concolic

/-- How an engine is started. -/
structure EngineCommand where
  /-- The program. -/
  program : String
  /-- Its arguments. -/
  arguments : List String
  deriving DecidableEq, Repr

end Concolic
