/-
# Requests to a bridge

An engine in another process is spoken to in lines.  A call is one line with an object that
names the operation first and then what it needs; bytes are written as pairs of digits, and a
budget as a number of milliseconds.
-/
import Concolic.Engine.Call
import Concolic.Json.Printer
import Concolic.Text.Numeral

namespace Concolic

/-- The number of milliseconds of a budget, as far as 64 bits hold it. -/
def Duration.wireMilliseconds (d : Duration) : Nat := min d.milliseconds (Numeral.wordLimit - 1)

/-- A policy as a value. -/
def Policy.json : Policy → Json
  | .singleFork => .object [("kind", .string "single_fork")]
  | .timeout budget =>
    .object [("kind", .string "timeout"), ("budget", .natural budget.wireMilliseconds)]

/-- An entry of the argument vector as a value. -/
def Binding.json : Binding → Json
  | .concrete bytes => .object [("kind", .string "concrete"), ("hex", .string (Hex.encode bytes))]
  | .symbolic unknown =>
    .object [("kind", .string "symbolic"), ("name", .string unknown.name),
      ("width", .natural unknown.width)]

/-- A simulated file as a value. -/
def SimulatedFile.json (f : SimulatedFile) : Json :=
  .object [("path", .string f.path), ("name", .string f.content.name),
    ("size", .natural f.content.width)]

/-- What is sent to a bridge, whose projects and states are numbers. -/
inductive Request where
  /-- A call. -/
  | call (c : Call Nat Nat)
  /-- The request to end. -/
  | shutdown
  deriving DecidableEq, Repr

namespace Request

/-- A request as a value. -/
def json : Request → Json
  | .call (.load executable) =>
    .object [("op", .string "load"), ("path", .string executable.display)]
  | .call (.entryState project arguments files) =>
    .object [("op", .string "entry_state"), ("project", .natural project),
      ("args", .array (arguments.map Binding.json)),
      ("files", .array (files.map SimulatedFile.json))]
  | .call (.explore state policy) =>
    .object [("op", .string "explore"), ("state", .natural state), ("policy", policy.json)]
  | .call (.solve state unknown) =>
    .object [("op", .string "solve"), ("state", .natural state),
      ("symbol", .string unknown.name), ("width", .natural unknown.width)]
  | .call (.lookupDescriptor state path) =>
    .object [("op", .string "lookup_fd"), ("state", .natural state), ("path", .string path)]
  | .call (.dumpDescriptor state descriptor) =>
    .object [("op", .string "dump_fd"), ("state", .natural state), ("fd", .natural descriptor)]
  | .call (.dumpPath state path) =>
    .object [("op", .string "dump_path"), ("state", .natural state), ("path", .string path)]
  | .shutdown => .object [("op", .string "shutdown")]

/-- A request as it is sent, without the end of the line. -/
def text (r : Request) : String := r.json.print

/-- A request as it is sent. -/
def line (r : Request) : String := r.text ++ "\n"

end Request

end Concolic
