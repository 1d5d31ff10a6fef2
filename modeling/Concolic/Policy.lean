/-
# Exploration policies

A policy says when an engine stops exploring: as soon as there is a choice, or after some
time.
-/
import Concolic.Duration

namespace Concolic

/-- When an engine stops exploring. -/
inductive Policy where
  /-- As soon as more than one state can go on. -/
  | singleFork
  /-- Once more time than the budget has passed. -/
  | timeout (budget : Duration)
  deriving DecidableEq, Repr

/-- How far an exploration has come. -/
structure Progress where
  /-- The number of states that can go on. -/
  active : Nat
  /-- The time since its start. -/
  elapsed : Duration
  deriving DecidableEq, Repr

namespace Policy

/-- The budget of a timeout for which none is given. -/
def defaultBudget : Duration := .ofSeconds 7

/-- Does the exploration stop here? -/
def shouldStop (p : Policy) (progress : Progress) : Bool :=
  match p with
  | .singleFork => 1 < progress.active
  | .timeout budget => budget.nanoseconds < progress.elapsed.nanoseconds

/-- The policy as a message shows it. -/
def display : Policy → String
  | .singleFork => "single-fork"
  | .timeout budget => s!"timeout({budget.secondsText}s)"

instance : Inhabited Policy := ⟨.singleFork⟩

end Policy

end Concolic
