/-
# Replies of a bridge

A reply is an object with one field: `ok` with what the call is answered with, or `error` with
the reason why the call is refused.  An answer is an object whose further fields do not count,
or a sequence of just the fields that do.
-/
import Concolic.Engine.Call
import Concolic.Json.Parser
import Concolic.Text.Blank
import Concolic.Text.Numeral

namespace Concolic

/-- What a bridge replies. -/
inductive Reply where
  /-- The call is answered. -/
  | answered (payload : Json)
  /-- The call is refused. -/
  | refused (reason : String)
  deriving Repr

namespace Reply

/-- The reply that a value is. -/
def ofJson? : Json → Option Reply
  | .object [(name, value)] =>
    if name = "ok" then some (.answered value)
    else if name = "error" then value.string?.map .refused
    else none
  | _ => none

/-- The reply on a line. -/
def ofLine (line : String) : Except EngineError Reply :=
  match Json.parse (Text.trimEnd line) with
  | .error detail => .error (.protocol (.illFormed detail))
  | .ok j =>
    match ofJson? j with
    | some r => .ok r
    | none => .error (.protocol (.illFormed "neither an answer nor a refusal"))

/-- The limit of a handle; handles stay below it. -/
def handleLimit : Nat := Numeral.wordLimit

/-- The limit of a descriptor; descriptors stay below it. -/
def descriptorLimit : Nat := 4294967296

/-- The fields of an answer; one that an object does not have is missing. -/
def fields? (names : List String) : Json → Option (List (Option Json))
  | .object fields => some (names.map (Json.lastField? fields))
  | .array items => if items.length = names.length then some (items.map some) else none
  | _ => none

/-- The value of the only field of an answer. -/
def onlyField? (name : String) (payload : Json) : Option Json :=
  match fields? [name] payload with
  | some [some value] => some value
  | _ => none

/-- A handle under a name. -/
def handle? (name : String) (payload : Json) : Option Nat :=
  (onlyField? name payload).bind (Json.naturalBelow? handleLimit)

/-- A sequence of handles. -/
def handles? (j : Json) : Option (List Nat) :=
  j.array?.bind fun items => items.mapM (Json.naturalBelow? handleLimit)

/-- The states found by an exploration. -/
def exploration? (payload : Json) : Option (Exploration Nat) :=
  match fields? ["terminated", "runnable"] payload with
  | some [some terminated, some runnable] => do
    let terminated ← handles? terminated
    let runnable ← handles? runnable
    pure ⟨terminated, runnable⟩
  | _ => none

/-- A descriptor, or that there is none. -/
def descriptor? (payload : Json) : Option (Option Nat) :=
  match fields? ["fd"] payload with
  | some [none] => some none
  | some [some .null] => some none
  | some [some value] => (Json.naturalBelow? descriptorLimit value).map some
  | _ => none

/-- What is found, or the fault that the answer does not have the right form. -/
def wellFormed {α : Type} : Option α → Except EngineError α
  | some a => .ok a
  | none => .error (.protocol (.illFormed "an answer to another call"))

/-- The bytes of an answer. -/
def bytes (payload : Json) : Except EngineError Bytes :=
  match wellFormed ((onlyField? "bytes" payload).bind Json.string?) with
  | .error e => .error e
  | .ok digits =>
    match Hex.decode digits with
    | .ok b => .ok b
    | .error fault => .error (.protocol (.badBytes fault))

/-- What an answer says about a call. -/
def decode (c : Call Nat Nat) (payload : Json) : Except EngineError c.Answer :=
  match c with
  | .load _ => wellFormed (handle? "project" payload)
  | .entryState .. => wellFormed (handle? "state" payload)
  | .explore .. => wellFormed (exploration? payload)
  | .solve .. => bytes payload
  | .lookupDescriptor .. => wellFormed (descriptor? payload)
  | .dumpDescriptor .. => bytes payload
  | .dumpPath .. => bytes payload

/-- What the reply on a line says about a call. -/
def answerOf (c : Call Nat Nat) (line : String) : Except EngineError c.Answer :=
  match ofLine line with
  | .error e => .error e
  | .ok (.refused reason) => .error (.rejected reason)
  | .ok (.answered payload) => decode c payload

end Reply

namespace Policy

/-- The fields of a policy without its kind, which must be given once. -/
def splitKind (fields : List (String × Json)) : Option (Json × List (String × Json)) :=
  match fields.filter (·.1 = "kind") with
  | [(_, kind)] => some (kind, fields.filter (·.1 ≠ "kind"))
  | _ => none

/-- The timeout with a budget in milliseconds. -/
def ofBudget? (budget : Json) : Option Policy :=
  (Json.naturalBelow? Reply.handleLimit budget).map fun n => .timeout (.ofMilliseconds n)

/-- The policy that a value is: an object that names its kind and, for a timeout, gives its
budget once, or a sequence of these. -/
def ofJson? : Json → Option Policy
  | .object fields =>
    match splitKind fields with
    | some (.string "single_fork", _) => some .singleFork
    | some (.string "timeout", rest) =>
      match rest.filter (·.1 = "budget") with
      | [(_, budget)] => ofBudget? budget
      | _ => none
    | _ => none
  | .array [.string "single_fork"] => some .singleFork
  | .array [.string "timeout", budget] => ofBudget? budget
  | _ => none

/-- The policy that a text is. -/
def parse? (text : String) : Option Policy :=
  match Json.parse text with
  | .ok j => ofJson? j
  | .error _ => none

end Policy

end Concolic
