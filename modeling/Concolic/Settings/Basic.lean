/-
# Settings

What does not change from one call of the program to the next can be kept in settings: how
many documents are worked on at a time, how the engine is started, when it stops exploring,
and where the output goes.  What is asked for in a call takes the place of what is set.
-/
import Concolic.Engine.Command
import Concolic.Policy
import Concolic.Run.Error

namespace Concolic

/-- The kinds of policies. -/
inductive PolicyKind where
  /-- Stop as soon as there is a choice. -/
  | singleFork
  /-- Stop after some time. -/
  | timeout
  deriving DecidableEq, Repr

namespace PolicyKind

/-- The word for a kind. -/
def label : PolicyKind → String
  | .singleFork => "single-fork"
  | .timeout => "timeout"

/-- The kind that a word stands for. -/
def ofWord? (word : String) : Option PolicyKind :=
  if word = "single-fork" then some .singleFork
  else if word = "timeout" then some .timeout
  else none

/-- The kind that a word stands for; all other words are refused. -/
def parse (word : String) : Except InputFault PolicyKind :=
  match ofWord? word with
  | some kind => .ok kind
  | none => .error (.unknownPolicy word)

end PolicyKind

/-- Values that hold for every call. -/
structure Settings where
  /-- The number of documents that are worked on at a time. -/
  jobs : Nat
  /-- The program that is the engine. -/
  engineProgram : Option String
  /-- Its arguments. -/
  engineArguments : List String
  /-- The kind of the policy. -/
  policyKind : PolicyKind
  /-- The budget of a timeout, in seconds. -/
  timeoutSeconds : Nat
  /-- The directory in which the output directory is made. -/
  outputParent : Path
  deriving DecidableEq, Repr

/-- What takes the place of settings in one call. -/
structure Overrides where
  /-- In place of `jobs`. -/
  jobs : Option Nat
  /-- In place of `engineProgram`. -/
  engineProgram : Option String
  /-- In place of `engineArguments`. -/
  engineArguments : Option (List String)
  /-- In place of `policyKind`. -/
  policyKind : Option PolicyKind
  /-- In place of `timeoutSeconds`. -/
  timeoutSeconds : Option Nat
  /-- In place of `outputParent`. -/
  outputParent : Option Path
  deriving DecidableEq, Repr

/-- Nothing takes the place of settings. -/
def Overrides.none : Overrides := ⟨.none, .none, .none, .none, .none, .none⟩

namespace Settings

/-- The values where nothing is set. -/
def default : Settings where
  jobs := 1
  engineProgram := none
  engineArguments := []
  policyKind := .singleFork
  timeoutSeconds := Policy.defaultBudget.wholeSeconds
  outputParent := Path.ofString "."

/-- The settings with what takes their place. -/
def override (s : Settings) (o : Overrides) : Settings where
  jobs := o.jobs.getD s.jobs
  engineProgram := o.engineProgram <|> s.engineProgram
  engineArguments := o.engineArguments.getD s.engineArguments
  policyKind := o.policyKind.getD s.policyKind
  timeoutSeconds := o.timeoutSeconds.getD s.timeoutSeconds
  outputParent := o.outputParent.getD s.outputParent

/-- Something can be done at a time, and a timeout has some time. -/
def validate (s : Settings) : Except InputFault Unit :=
  if s.jobs = 0 then .error .noJobs
  else if s.policyKind = .timeout ∧ s.timeoutSeconds = 0 then .error .noBudget
  else .ok ()

/-- The policy that is set. -/
def policy (s : Settings) : Policy :=
  match s.policyKind with
  | .singleFork => .singleFork
  | .timeout => .timeout (.ofSeconds s.timeoutSeconds)

/-- How the engine is started, if a program is set. -/
def engineCommand? (s : Settings) : Option EngineCommand :=
  s.engineProgram.map fun program => ⟨program, s.engineArguments⟩

end Settings

end Concolic
