/-
# The arguments of a command

A command line asks for one of two things: to work on a document or a batch of documents, or
to look at a test case.  Its words are read from left to right, and the first one that is out
of place ends the reading; so does a switch that asks for help or for the version.
-/
import Concolic.CommandLine.Switch
import Concolic.Settings.Basic
import Concolic.Text.Numeral

namespace Concolic.CommandLine

/-- How a command line cannot be understood. -/
inductive Misuse where
  /-- There is no such switch. -/
  | unknownSwitch (name : String)
  /-- A switch is given more than once. -/
  | repeated (name : String)
  /-- A flag is given a value. -/
  | unwantedValue (name : String)
  /-- An option is given no value. -/
  | missingValue (name : String)
  /-- An option is given a value that it cannot have. -/
  | badValue (value : String)
  /-- A word is one too many. -/
  | unexpectedWord (word : String)
  /-- A document and a batch are given. -/
  | bothTargets
  /-- What is to be worked on is not given. -/
  | noTarget
  deriving DecidableEq, Repr

/-- The wording of a misuse. -/
def Misuse.message : Misuse → String
  | .unknownSwitch name => s!"there is no option '{name}'"
  | .repeated name => s!"option '{name}' is given more than once"
  | .unwantedValue name => s!"option '{name}' takes no value"
  | .missingValue name => s!"option '{name}' needs a value"
  | .badValue value => s!"invalid value '{value}'"
  | .unexpectedWord word => s!"unexpected argument '{word}'"
  | .bothTargets => "a document and a batch cannot be given together"
  | .noTarget => "a file or a batch must be given"

/-- Why the reading of a command line ends before its end. -/
inductive Ending where
  /-- Help is asked for. -/
  | help
  /-- The version is asked for. -/
  | version
  /-- The command line cannot be understood. -/
  | misuse (m : Misuse)
  deriving DecidableEq, Repr

/-- What the words that have been read say. -/
structure Draft where
  /-- The only plain word. -/
  file : Option Path
  /-- The directory of a batch. -/
  batch : Option Path
  /-- The file with settings. -/
  settings : Option Path
  /-- What takes the place of settings. -/
  overrides : Overrides
  /-- Are details logged? -/
  isVerbose : Bool
  deriving DecidableEq, Repr

namespace Draft

/-- Nothing has been read. -/
def empty : Draft := ⟨none, none, none, .none, false⟩

/-- A value that can be given once. -/
def once {α : Type} (s : Setting) (old : Option α) (value : Except Ending α) :
    Except Ending (Option α) :=
  match old, value with
  | none, .ok a => .ok (some a)
  | none, .error e => .error e
  | some _, _ => .error (.misuse (.repeated s.name))

/-- A value that a word stands for. -/
def valueOf {α : Type} (word : String) : Option α → Except Ending α
  | some a => .ok a
  | none => .error (.misuse (.badValue word))

/-- The path that a word spells; it must not be empty. -/
def path (word : String) : Except Ending Path :=
  if word.isEmpty then .error (.misuse (.badValue word)) else .ok (Path.ofString word)

/-- A number of 64 bits. -/
def number (word : String) : Except Ending Nat := valueOf word (Numeral.unsigned? word.toList)

/-- A plain word. -/
def place (d : Draft) (word : String) : Except Ending Draft :=
  match d.file with
  | some _ => .error (.misuse (.unexpectedWord word))
  | none => do pure { d with file := some (← path word) }

/-- A flag. -/
def raise (d : Draft) : Flag → Except Ending Draft
  | .help => .error .help
  | .version => .error .version
  | .verbose =>
    if d.isVerbose then .error (.misuse (.repeated "verbose"))
    else .ok { d with isVerbose := true }

/-- An option with its value. -/
def set (d : Draft) (s : Setting) (value : String) : Except Ending Draft := do
  let o := d.overrides
  match s with
  | .batch => pure { d with batch := ← once s d.batch (path value) }
  | .settings => pure { d with settings := ← once s d.settings (path value) }
  | .engine =>
    let program ← once s o.engineProgram (.ok value)
    pure { d with overrides := { o with engineProgram := program } }
  | .engineArgument =>
    let arguments := o.engineArguments.getD [] ++ [value]
    pure { d with overrides := { o with engineArguments := some arguments } }
  | .policy =>
    let kind ← once s o.policyKind (valueOf value (PolicyKind.ofWord? value))
    pure { d with overrides := { o with policyKind := kind } }
  | .timeout =>
    let seconds ← once s o.timeoutSeconds (number value)
    pure { d with overrides := { o with timeoutSeconds := seconds } }
  | .output =>
    let parent ← once s o.outputParent (path value)
    pure { d with overrides := { o with outputParent := parent } }
  | .jobs =>
    let jobs ← once s o.jobs (number value)
    pure { d with overrides := { o with jobs := jobs } }

/-- Letters behind one dash: flags, and at most one option, whose value is the rest of the word,
with or without an equals sign, or the next word. -/
def letters (v : Vocabulary) (d : Draft) : List Char → Except Ending (Draft × Option Setting)
  | [] => .ok (d, none)
  | letter :: rest =>
    match v.short.lookup letter with
    | none => .error (.misuse (.unknownSwitch (String.ofList [letter])))
    | some (.flag f) => do letters v (← d.raise f) rest
    | some (.option s) =>
      match rest with
      | [] => .ok (d, some s)
      | '=' :: value => do pure (← d.set s (String.ofList value), none)
      | value => do pure (← d.set s (String.ofList value), none)

/-- A long name, perhaps with a value. -/
def long (v : Vocabulary) (d : Draft) (name : String) (value : Option String) :
    Except Ending (Draft × Option Setting) :=
  match v.long.lookup name, value with
  | none, _ => .error (.misuse (.unknownSwitch name))
  | some (.flag f), none => do pure (← d.raise f, none)
  | some (.flag _), some _ => .error (.misuse (.unwantedValue name))
  | some (.option s), none => .ok (d, some s)
  | some (.option s), some value => do pure (← d.set s value, none)

/-- Reads words; an option may be waiting for its value. -/
def read (v : Vocabulary) (d : Draft) : (waiting : Option Setting) → List String →
    Except Ending Draft
  | none, [] => .ok d
  | some s, [] => .error (.misuse (.missingValue s.name))
  | some s, word :: rest =>
    if s.takesAnything || !Word.isSwitch word then do
      read v (← d.set s word) none rest
    else .error (.misuse (.missingValue s.name))
  | none, word :: rest =>
    match Word.classify word with
    | .separator => rest.foldlM place d
    | .plain => do read v (← d.place word) none rest
    | .short cs => do
      let (d', waiting) ← letters v d cs
      read v d' waiting rest
    | .long name value => do
      let (d', waiting) ← long v d name value
      read v d' waiting rest

end Draft

/-- What is worked on. -/
inductive Target where
  /-- One document. -/
  | document (path : Path)
  /-- The documents of a directory. -/
  | batch (directory : Path)
  deriving DecidableEq, Repr

/-- What is asked for. -/
inductive Command where
  /-- To look at a test case. -/
  | inspect (file : Path)
  /-- To work on documents. -/
  | generate (target : Target) (settings : Option Path) (overrides : Overrides)
  deriving DecidableEq, Repr

/-- What is asked for, and whether details are logged. -/
structure Invocation where
  /-- What is asked for. -/
  command : Command
  /-- Are details logged? -/
  isVerbose : Bool
  deriving DecidableEq, Repr

namespace Draft

/-- The draft as a look at a test case. -/
def toInspection (d : Draft) : Except Ending Invocation :=
  match d.file with
  | some file => .ok ⟨.inspect file, d.isVerbose⟩
  | none => .error (.misuse .noTarget)

/-- The draft as work on documents. -/
def toGeneration (d : Draft) : Except Ending Invocation :=
  let invocation (t : Target) : Invocation :=
    ⟨.generate t d.settings d.overrides, d.isVerbose⟩
  match d.file, d.batch with
  | some file, none => .ok (invocation (.document file))
  | none, some directory => .ok (invocation (.batch directory))
  | some _, some _ => .error (.misuse .bothTargets)
  | none, none => .error (.misuse .noTarget)

end Draft

/-- What a command line asks for.  The words `inspect` and `help` have their meaning only at
its beginning. -/
def Invocation.parse : List String → Except Ending Invocation
  | "inspect" :: words => do (← Draft.read .inspect .empty none words).toInspection
  | ["help"] => .error .help
  | ["help", "inspect"] => .error .help
  | ["help", "help"] => .error .help
  | "help" :: word :: rest =>
    .error (.misuse (.unexpectedWord ((word :: rest).getLastD word)))
  | words => do (← Draft.read .generate .empty none words).toGeneration

end Concolic.CommandLine
