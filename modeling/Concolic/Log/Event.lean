/-
# Log events

What the parts of the program tell about their work.  An event has a level, the part it comes
from, and a message.
-/
import Concolic.Text.Hex

namespace Concolic.Log

/-- How much an event matters, the most important first. -/
inductive Level where
  /-- A failure. -/
  | error
  /-- Something that is passed over. -/
  | warn
  /-- A step of the work. -/
  | info
  /-- A detail of a step. -/
  | debug
  /-- A detail of a detail. -/
  | trace
  deriving DecidableEq, Repr

/-- The place of a level in the order of importance, from one. -/
def Level.rank : Level → Nat
  | .error => 1
  | .warn => 2
  | .info => 3
  | .debug => 4
  | .trace => 5

/-- The name of a level at the head of a log line. -/
def Level.label : Level → String
  | .error => "ERROR"
  | .warn => "WARN"
  | .info => "INFO"
  | .debug => "DEBUG"
  | .trace => "TRACE"

/-- The parts of the program that log. -/
inductive Component where
  /-- The command line. -/
  | command
  /-- The reader of configuration documents. -/
  | loader
  /-- The binding of declared inputs to arguments and files. -/
  | binder
  /-- The queries on an explored state. -/
  | collector
  /-- The engine in another process. -/
  | bridge
  /-- The work on one document. -/
  | harvest
  /-- The work on a directory of documents. -/
  | batch
  /-- The writing of test cases. -/
  | encoder
  /-- The output directories. -/
  | layout
  /-- The settings file. -/
  | settings
  deriving DecidableEq, Repr

/-- The name by which a filter directive addresses a part. -/
def Component.target : Component → String
  | .command => "ctc"
  | .loader => "ctc_config::loader"
  | .binder => "ctc_engine::binder"
  | .collector => "ctc_engine::collector"
  | .bridge => "ctc_engine::process"
  | .harvest => "ctc_runner::orchestrator"
  | .batch => "ctc_runner::batch"
  | .encoder => "ctc_runner::encoder"
  | .layout => "ctc_runner::layout"
  | .settings => "ctc_runner::settings"

/-- One event. -/
structure Event where
  /-- How much the event matters. -/
  level : Level
  /-- The part that tells it. -/
  component : Component
  /-- What it tells. -/
  message : String
  deriving DecidableEq, Repr

/-- The event as a log line, without its time. -/
def Event.line (e : Event) : String := s!"{e.level.label} {e.message}"

/-- A character of a line on a terminal: those that could steer the terminal are shown by their
numbers. -/
def terminalCharacter (c : Char) : List Char :=
  if c = '\x07' || c = '\x08' || c = '\x0c' || c = '\x1b' || c = '\x7f' then
    ['\\', 'x', Hex.digit (c.toNat / 16), Hex.digit (c.toNat % 16)]
  else if 0x80 ≤ c.val && c.val ≤ 0x9f then
    '\\' :: 'u' :: '\x7b' :: (Text.hexNumber c.toNat ++ ['\x7d'])
  else [c]

/-- The event as a line on a terminal, without its time. -/
def Event.terminalLine (e : Event) : String :=
  String.ofList (e.line.toList.flatMap terminalCharacter)

end Concolic.Log
