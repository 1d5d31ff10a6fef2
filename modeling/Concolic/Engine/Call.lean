/-
# Calls on an engine

An engine loads a program, makes an entry state for bound inputs, explores from it, and then
answers queries about the states it has found.  What it calls projects and states is its own
business.
-/
import Concolic.Binding
import Concolic.Engine.Error
import Concolic.Policy

namespace Concolic

/-- What an exploration has found. -/
structure Exploration (S : Type) where
  /-- The states that have come to an end. -/
  terminated : List S
  /-- The states that could go on. -/
  runnable : List S
  deriving DecidableEq, Repr

namespace Exploration

variable {S : Type}

/-- The number of states. -/
def size (e : Exploration S) : Nat := e.terminated.length + e.runnable.length

/-- All states, those that have come to an end first. -/
def states (e : Exploration S) : List S := e.terminated ++ e.runnable

end Exploration

/-- A call on an engine with projects `P` and states `S`. -/
inductive Call (P S : Type) where
  /-- Load a program. -/
  | load (executable : Path)
  /-- Make an entry state. -/
  | entryState (project : P) (arguments : List Binding) (files : List SimulatedFile)
  /-- Explore. -/
  | explore (state : S) (policy : Policy)
  /-- Find bytes. -/
  | solve (state : S) (unknown : Unknown)
  /-- Find the descriptor under which a file is open. -/
  | lookupDescriptor (state : S) (path : String)
  /-- The content behind a descriptor. -/
  | dumpDescriptor (state : S) (descriptor : Nat)
  /-- The content of a file. -/
  | dumpPath (state : S) (path : String)
  deriving DecidableEq, Repr

/-- What a call is answered with if it succeeds. -/
def Call.Answer {P S : Type} : Call P S → Type
  | .load _ => P
  | .entryState .. => S
  | .explore .. => Exploration S
  | .solve .. => Bytes
  | .lookupDescriptor .. => Option Nat
  | .dumpDescriptor .. => Bytes
  | .dumpPath .. => Bytes

/-- An engine with an inner state of type `σ`. -/
structure Engine (P S σ : Type) where
  /-- Answers a call and moves on to another inner state. -/
  answer : (c : Call P S) → σ → Except EngineError c.Answer × σ

/-- A call with the answer it got. -/
structure Exchange (P S : Type) where
  /-- The call. -/
  call : Call P S
  /-- The answer. -/
  answer : Except EngineError call.Answer

namespace Engine

variable {P S σ : Type}

/-- The engine that fails at the calls with the given numbers, counted from zero, instead of
answering them. -/
def withFaults (e : Engine P S σ) (faults : List (Nat × EngineError)) :
    Engine P S (Nat × σ) where
  answer c s :=
    match faults.lookup s.1 with
    | some fault => (.error fault, (s.1 + 1, s.2))
    | none =>
      let (result, after) := e.answer c s.2
      (result, (s.1 + 1, after))

end Engine

end Concolic
