/-
# Scripted engines

An engine whose states, solutions and files are laid down beforehand.  It hands its states out
once and keeps account of what it was asked.
-/
import Concolic.Engine.Call
import Concolic.Text.Numeral

namespace Concolic

/-- A state with everything that can be asked about it. -/
structure ScriptedState where
  /-- What unknowns stand for. -/
  solutions : List (String × Bytes)
  /-- The open files, with their descriptors and contents. -/
  descriptors : List (String × Nat × Bytes)
  /-- The files that can be found by path. -/
  files : List (String × Bytes)
  deriving DecidableEq, Repr

/-- A script, and the account of how it was played. -/
structure Script where
  /-- The states that will have come to an end. -/
  terminated : List ScriptedState
  /-- The states that will be able to go on. -/
  runnable : List ScriptedState
  /-- The states that have been handed out, by number. -/
  states : List ScriptedState
  /-- Why no program can be loaded. -/
  loadError : Option String
  /-- The number of calls. -/
  calls : Nat
  /-- The programs that were loaded. -/
  loaded : List Path
  /-- The argument vector of the last entry state. -/
  entryArguments : List Binding
  /-- The files of the last entry state. -/
  entryFiles : List SimulatedFile
  /-- The policies of the explorations. -/
  policies : List Policy
  /-- Would the last policy have stopped at once? -/
  policyFired : Bool
  /-- The number of times that a file was asked for by path. -/
  pathDumps : Nat
  deriving DecidableEq, Repr

namespace Script

/-- A script that has not been played yet. -/
def new (terminated runnable : List ScriptedState) (loadError : Option String) : Script where
  terminated := terminated
  runnable := runnable
  states := []
  loadError := loadError
  calls := 0
  loaded := []
  entryArguments := []
  entryFiles := []
  policies := []
  policyFired := false
  pathDumps := 0

/-- The handle of an entry state, about which nothing can be asked. -/
def entryHandle : Nat := Numeral.wordLimit - 1

/-- What a state answers. -/
def ask {α : Type} (s : Script) (handle : Nat) (f : ScriptedState → Except EngineError α) :
    Except EngineError α :=
  match s.states[handle]? with
  | some state => f state
  | none => .error (.unknownHandle handle)

/-- The value found, or the error. -/
def found {α : Type} (o : Option α) (e : EngineError) : Except EngineError α :=
  match o with
  | some a => .ok a
  | none => .error e

/-- Answers a call. -/
def answer (c : Call Path Nat) (before : Script) : Except EngineError c.Answer × Script :=
  let s := { before with calls := before.calls + 1 }
  match c with
  | .load executable =>
    match s.loadError with
    | some reason => (.error (.rejected reason), s)
    | none => (.ok executable, { s with loaded := s.loaded ++ [executable] })
  | .entryState _ arguments files =>
    (.ok entryHandle, { s with entryArguments := arguments, entryFiles := files })
  | .explore _ policy =>
    let ended := s.terminated.length
    let states := s.terminated ++ s.runnable
    (.ok ⟨List.range ended, (List.range states.length).drop ended⟩,
      { s with
        terminated := []
        runnable := []
        states := states
        policies := s.policies ++ [policy]
        policyFired := policy.shouldStop ⟨s.runnable.length, .zero⟩ })
  | .solve handle unknown =>
    (s.ask handle fun state =>
      found (state.solutions.lookup unknown.name) (.unsatisfiable unknown.name), s)
  | .lookupDescriptor handle path =>
    (s.ask handle fun state => .ok ((state.descriptors.lookup path).map Prod.fst), s)
  | .dumpDescriptor handle descriptor =>
    (s.ask handle fun state =>
      found ((state.descriptors.find? fun d => d.2.1 = descriptor).map fun d => d.2.2)
        (.rejected s!"bad descriptor {descriptor}"), s)
  | .dumpPath handle path =>
    (s.ask handle fun state =>
      found (state.files.lookup path) (.rejected s!"no such file: {path}"),
      { s with pathDumps := s.pathDumps + 1 })

end Script

/-- The engine that plays a script. -/
def scriptedEngine : Engine Path Nat Script := ⟨Script.answer⟩

end Concolic
