/-
# Hosts

A host is the surroundings of an action: a tree of files, the engine that is running, and an
account of everything that was asked of it.
-/
import Concolic.Run.Action

namespace Concolic

/-- How engines with an inner state of type `σ` are started, asked and closed. -/
structure Machine (P S σ : Type) where
  /-- Starts the engine with a number, counted from zero, by a command; starting can tell
  events. -/
  launch : Nat → EngineCommand → Except RunError σ × List Log.Event
  /-- Answers calls. -/
  engine : Engine P S σ
  /-- Closes an engine; closing can tell events. -/
  close : σ → σ × List Log.Event

/-- The surroundings of an action. -/
structure Host (P S σ : Type) where
  /-- The files. -/
  files : FileTree
  /-- The engine that is running. -/
  session : Option σ
  /-- How many times an engine was to be started. -/
  launches : Nat
  /-- The engines that were closed, the first one first. -/
  closed : List σ
  /-- The calls and their answers, in order. -/
  exchanges : List (Exchange P S)
  /-- The events, in order. -/
  events : List Log.Event
  /-- The texts printed, in order. -/
  printed : List String
  /-- What the clock shows. -/
  stamp : String

namespace Host

variable {P S σ : Type}

/-- The host with nothing but files. -/
def new (files : FileTree) (stamp : String) : Host P S σ where
  files := files
  session := none
  launches := 0
  closed := []
  exchanges := []
  events := []
  printed := []
  stamp := stamp

/-- Does what is asked. -/
def perform (m : Machine P S σ) (h : Host P S σ) : (op : Operation P S) → op.Answer × Host P S σ
  | .file op =>
    let (answer, files) := op.run h.files
    (answer, { h with files := files })
  | .launch command =>
    let (result, told) := m.launch h.launches command
    let h' := { h with launches := h.launches + 1, events := h.events ++ told }
    match result with
    | .ok s => (.ok (), { h' with session := some s })
    | .error e => (.error e, h')
  | .ask call =>
    match h.session with
    | some s =>
      let (answer, after) := m.engine.answer call s
      (answer, { h with session := some after, exchanges := h.exchanges ++ [⟨call, answer⟩] })
    | none =>
      (.error .closed, { h with exchanges := h.exchanges ++ [⟨call, .error .closed⟩] })
  | .close =>
    match h.session with
    | some s =>
      let (after, told) := m.close s
      ((), { h with session := none, closed := h.closed ++ [after], events := h.events ++ told })
    | none => ((), h)
  | .tell event => ((), { h with events := h.events ++ [event] })
  | .print text => ((), { h with printed := h.printed ++ [text] })
  | .stamp => (h.stamp, h)

end Host

namespace Action

variable {P S σ α : Type}

/-- Carries an action out. -/
def run (m : Machine P S σ) (h : Host P S σ) : Action P S α → α × Host P S σ
  | .done a => (a, h)
  | .step op next =>
    let (answer, h') := h.perform m op
    (next answer).run m h'

end Action

namespace Work

variable {P S σ α : Type}

/-- Carries work out. -/
def runOn (m : Machine P S σ) (h : Host P S σ) (w : Work P S α) :
    Except RunError α × Host P S σ := Action.run m h (ExceptT.run w)

end Work

end Concolic
