/-
# Outcomes

The outcome of a state is one value for every input that was to be found: first the symbolic
arguments, then the files, then the standard input.  The content of a file is asked for by its
descriptor if the file is open, and by its path otherwise.  If the engine has no answer for a
state, the outcome of that state is unresolved; any other failure of the engine ends the run.
-/
import Concolic.Bytes
import Concolic.Record.Basic
import Concolic.Run.Action

namespace Concolic

/-- The value of an input in a state. -/
structure FoundValue where
  /-- The kind of the input. -/
  kind : InputKind
  /-- The name of the input in a test case. -/
  elementName : String
  /-- The declared width of the input. -/
  declaredSize : Nat
  /-- The value, as the engine gives it. -/
  value : Bytes
  deriving DecidableEq, Repr

/-- The values of all inputs in a state. -/
structure Outcome where
  /-- The values, in the order of the inputs. -/
  values : List FoundValue
  deriving DecidableEq, Repr

/-- Why there is no outcome of a state. -/
inductive CollectError where
  /-- There is no answer for an input in this state. -/
  | unresolved (name : String) (cause : EngineError)
  /-- The engine fails. -/
  | engine (cause : EngineError)
  deriving DecidableEq, Repr

namespace CollectError

/-- The wording of an error. -/
def message : CollectError → String
  | .unresolved name cause => s!"unresolved input '{name}': {cause.message}"
  | .engine cause => cause.message

/-- The error that a failed query for an input amounts to. -/
def ofQuery (name : String) (cause : EngineError) : CollectError :=
  if cause.isOutcomeScoped then .unresolved name cause else .engine cause

end CollectError

namespace FoundValue

/-- The value of an input. -/
def ofInput (i : Input) (value : Bytes) : FoundValue := ⟨i.kind, i.elementName, i.size, value⟩

/-- The value as it is recorded: contents are cut or filled up to the declared width,
arguments are recorded as they are. -/
def recorded (v : FoundValue) : Bytes :=
  match v.kind with
  | .argument => v.value
  | .file => v.value.toWidth v.declaredSize
  | .standardInput => v.value.toWidth v.declaredSize

end FoundValue

namespace Outcome

/-- The value of a name, the first one if there are several. -/
def get? (o : Outcome) (elementName : String) : Option FoundValue :=
  o.values.find? fun v => v.elementName = elementName

/-- The test case of an outcome. -/
def testCase (o : Outcome) : TestCase := ⟨o.values.map fun v => ⟨v.elementName, v.recorded⟩⟩

end Outcome

/-- What is asked about an input in every state. -/
inductive Question where
  /-- The bytes of an argument. -/
  | bytes (unknown : Unknown)
  /-- The content of a file. -/
  | content (file : SimulatedFile)
  deriving DecidableEq, Repr

/-- The inputs to be found, each with what is asked about it. -/
def questions (c : Configuration) (b : BoundInputs) : List (Input × Question) :=
  (c.symbolicArguments.zip b.unknownArguments).map (fun x => (.argument x.1, .bytes x.2))
    ++ (c.files.zip b.files).map (fun x => (.file x.1, .content x.2))
    ++ (c.standardInput.toList.zip b.standardInput.toList).map
      fun x => (.standardInput x.1, .content x.2)

variable {P S : Type}

/-- A detail that the queries tell. -/
def queryDetail (message : String) : Log.Event := ⟨.debug, .collector, message⟩

/-- Asks for the content of a file. -/
def askContent (state : S) (path : String) : Work P S (Except EngineError Bytes) := do
  match ← Work.call (.lookupDescriptor state path) with
  | .error e => pure (.error e)
  | .ok (some descriptor) => do
    Work.tell (queryDetail s!"fd {descriptor} found for {path}")
    Work.call (.dumpDescriptor state descriptor)
  | .ok none => do
    Work.tell (queryDetail s!"no fd found, dumping by path: {path}")
    Work.call (.dumpPath state path)

/-- Asks for the value of an input. -/
def askValue (state : S) : Question → Work P S (Except EngineError Bytes)
  | .bytes unknown => Work.call (.solve state unknown)
  | .content file => askContent state file.path

/-- Asks for the values of inputs until one is not answered. -/
def askValues (state : S) :
    List (Input × Question) → Work P S (Except CollectError (List FoundValue))
  | [] => pure (.ok [])
  | (input, question) :: rest => do
    match ← askValue state question with
    | .error e => pure (.error (.ofQuery input.name e))
    | .ok value => do
      match ← askValues state rest with
      | .error e => pure (.error e)
      | .ok values => pure (.ok (.ofInput input value :: values))

/-- Asks for the outcome of a state. -/
def collect (state : S) (c : Configuration) (b : BoundInputs) :
    Work P S (Except CollectError Outcome) := do
  match ← askValues state (questions c b) with
  | .error e => pure (.error e)
  | .ok values => pure (.ok ⟨values⟩)

end Concolic
