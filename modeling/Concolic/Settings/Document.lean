/-
# Settings documents

Settings are kept in a TOML document: `jobs` at the top, and the sections `engine`,
`exploration` and `output`.  All of it can be left out, and nothing else may be there.  A
section may also be a sequence of its values, in the order in which its keys are listed here.
-/
import Concolic.Run.Action
import Concolic.Settings.Basic
import Concolic.Toml.Parser

namespace Concolic.Settings

/-- The values of a section by the names of its keys; other keys are refused. -/
def sectionOf? (names : List String) (section? : Toml) : Option (List (Option Toml)) :=
  match section?.fields? with
  | some fields =>
    if fields.all fun f => names.contains f.1 then
      some (names.map fun name => fields.lookup name)
    else none
  | none =>
    match section?.items? with
    | some items => some ((List.range names.length).map fun n => items[n]?)
    | none => none

/-- A value read from what is given, or the other one if nothing is given. -/
def readOr {α : Type} (read : Toml → Option α) (byDefault : α) : Option Toml → Option α
  | none => some byDefault
  | some value => read value

/-- A sequence of texts. -/
def texts? (value : Toml) : Option (List String) :=
  value.items?.bind fun items => items.mapM Toml.string?

/-- The kind of a policy: a word, or a table with the word as its only key and without any
value to it. -/
def policyKind? (value : Toml) : Option PolicyKind :=
  match value with
  | .string word => PolicyKind.ofWord? word
  | .table _ [(word, content)] => if content.isEmpty then PolicyKind.ofWord? word else none
  | _ => none

/-- The section about the engine. -/
def withEngine? (s : Settings) (value : Toml) : Option Settings := do
  match ← sectionOf? ["command", "args"] value with
  | [command, arguments] =>
    let program ← readOr (fun v => v.string?.map some) s.engineProgram command
    let arguments ← readOr texts? s.engineArguments arguments
    pure { s with engineProgram := program, engineArguments := arguments }
  | _ => none

/-- The section about the exploration. -/
def withExploration? (s : Settings) (value : Toml) : Option Settings := do
  match ← sectionOf? ["policy", "timeout_secs"] value with
  | [kind, seconds] =>
    let kind ← readOr policyKind? s.policyKind kind
    let seconds ← readOr Toml.natural? s.timeoutSeconds seconds
    pure { s with policyKind := kind, timeoutSeconds := seconds }
  | _ => none

/-- The section about the output. -/
def withOutput? (s : Settings) (value : Toml) : Option Settings := do
  match ← sectionOf? ["parent"] value with
  | [parent] =>
    let parent ← readOr (fun v => v.string?.map Path.ofString) s.outputParent parent
    pure { s with outputParent := parent }
  | _ => none

/-- The settings of a document, if it says nothing but settings. -/
def ofFields? (fields : Toml.Fields) : Option Settings := do
  match ← sectionOf? ["jobs", "engine", "exploration", "output"] (.table .header fields) with
  | [jobs, engine, exploration, output] =>
    let jobs ← readOr Toml.natural? default.jobs jobs
    let s := { default with jobs := jobs }
    let s ← readOr s.withEngine? s engine
    let s ← readOr s.withExploration? s exploration
    readOr s.withOutput? s output
  | _ => none

/-- The settings of a text, which must be valid. -/
def ofText (text : String) : Except InputFault Settings := do
  match Toml.parse text with
  | .error detail => throw (.illFormedSettings detail)
  | .ok fields =>
    match ofFields? fields with
    | none => throw (.illFormedSettings "an unknown key or a value of another kind")
    | some s => do
      s.validate
      pure s

/-- The settings that a file holds. -/
def load {P S : Type} (path : Path) : Work P S Settings := do
  let bytes ← Work.orFailAt path (← Work.readFile path)
  match Utf8.decode? bytes with
  | none => Work.orFailAt path (.error .notText)
  | some text => do
    let s ← Work.orFail (fun fault => .input (.inFile path fault)) (ofText text)
    Work.tell ⟨.debug, .settings, s!"Loaded settings from {path.display}"⟩
    pure s

end Concolic.Settings
