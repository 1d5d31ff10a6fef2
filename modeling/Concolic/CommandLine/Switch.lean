/-
# Switches

The words of a command line that begin with a dash.  A switch has a long name behind two
dashes and may have a letter behind one.  A flag stands alone, an option takes a value.
-/

namespace Concolic.CommandLine

/-- A switch without a value. -/
inductive Flag where
  /-- Log details. -/
  | verbose
  /-- Show what can be asked for. -/
  | help
  /-- Show the version. -/
  | version
  deriving DecidableEq, Repr

/-- A switch with a value. -/
inductive Setting where
  /-- The directory of a batch. -/
  | batch
  /-- The program that is the engine. -/
  | engine
  /-- One argument of the engine; the only option that can be given several times. -/
  | engineArgument
  /-- The kind of the policy. -/
  | policy
  /-- The budget of a timeout. -/
  | timeout
  /-- The directory in which the output directory is made. -/
  | output
  /-- The number of documents worked on at a time. -/
  | jobs
  /-- The file with settings. -/
  | settings
  deriving DecidableEq, Repr

/-- The long name of an option. -/
def Setting.name : Setting → String
  | .batch => "batch"
  | .engine => "engine"
  | .engineArgument => "engine-arg"
  | .policy => "policy"
  | .timeout => "timeout-secs"
  | .output => "out-dir"
  | .jobs => "jobs"
  | .settings => "settings"

/-- Can the value of an option be anything, even a word that looks like a switch? -/
def Setting.takesAnything (s : Setting) : Bool := s = .engineArgument

/-- A switch. -/
inductive Switch where
  /-- One without a value. -/
  | flag (f : Flag)
  /-- One with a value. -/
  | option (s : Setting)
  deriving DecidableEq, Repr

/-- The switches that can be given. -/
structure Vocabulary where
  /-- The switches by their long names. -/
  long : List (String × Switch)
  /-- The switches by their letters. -/
  short : List (Char × Switch)

namespace Vocabulary

/-- The switches for working on documents. -/
def generate : Vocabulary where
  long := [Setting.batch, .engine, .engineArgument, .policy, .timeout, .output, .jobs,
      .settings].map (fun s => (s.name, .option s))
    ++ [("verbose", .flag .verbose), ("help", .flag .help), ("version", .flag .version)]
  short := [('b', .option .batch), ('j', .option .jobs), ('v', .flag .verbose),
    ('h', .flag .help), ('V', .flag .version)]

/-- The switches for looking at a test case. -/
def inspect : Vocabulary where
  long := [("verbose", .flag .verbose), ("help", .flag .help)]
  short := [('v', .flag .verbose), ('h', .flag .help)]

end Vocabulary

/-- What a word of a command line looks like. -/
inductive Word where
  /-- Two dashes: all words that follow are plain. -/
  | separator
  /-- A long name, and what follows an equals sign behind it. -/
  | long (name : String) (value : Option String)
  /-- One or more letters behind a dash. -/
  | short (letters : List Char)
  /-- A word without a dash before it, or a dash alone. -/
  | plain
  deriving DecidableEq, Repr

namespace Word

/-- What a word looks like. -/
def classify (word : String) : Word :=
  match word.toList with
  | ['-', '-'] => .separator
  | '-' :: '-' :: rest =>
    let name := rest.takeWhile (· ≠ '=')
    match rest.drop name.length with
    | [] => .long (String.ofList name) none
    | _ :: value => .long (String.ofList name) (some (String.ofList value))
  | '-' :: letter :: rest => .short (letter :: rest)
  | _ => .plain

/-- Does a word look like a switch? -/
def isSwitch (word : String) : Bool := classify word != .plain

end Word

end Concolic.CommandLine
