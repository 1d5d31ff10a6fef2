/-
# Results with the events on the way to them

A step of work ends with a value or an error and has told some events by then.  The result of
two steps in a row does not depend on the events: it is that of the steps without them.
-/
import Concolic.Log.Event

namespace Concolic

/-- A value or an error, and the events told before it. -/
structure Traced (ε α : Type) where
  /-- What came out. -/
  result : Except ε α
  /-- What was told, in order. -/
  events : List Log.Event

namespace Traced

variable {ε α β : Type}

/-- A value without events. -/
def pure (a : α) : Traced ε α := ⟨.ok a, []⟩

/-- One step and, if it succeeds, the next one. -/
def bind (x : Traced ε α) (f : α → Traced ε β) : Traced ε β :=
  match x.result with
  | .ok a => ⟨(f a).result, x.events ++ (f a).events⟩
  | .error e => ⟨.error e, x.events⟩

instance : Monad (Traced ε) where
  pure := Traced.pure
  bind := Traced.bind

/-- Fails. -/
def fail (e : ε) : Traced ε α := ⟨.error e, []⟩

/-- A result without events. -/
def ofExcept (r : Except ε α) : Traced ε α := ⟨r, []⟩

/-- Tells one event. -/
def tell (e : Log.Event) : Traced ε Unit := ⟨.ok (), [e]⟩

@[simp] theorem result_pure (a : α) : (Pure.pure a : Traced ε α).result = .ok a := rfl

@[simp] theorem result_bind (x : Traced ε α) (f : α → Traced ε β) :
    (x >>= f).result = x.result.bind fun a => (f a).result := by
  show (Traced.bind x f).result = _
  unfold Traced.bind
  split <;> simp [Except.bind, *]

@[simp] theorem result_ofExcept (r : Except ε α) : (ofExcept r).result = r := rfl

@[simp] theorem result_fail (e : ε) : (fail e : Traced ε α).result = .error e := rfl

@[simp] theorem result_tell (e : Log.Event) : (tell e : Traced ε Unit).result = .ok () := rfl

end Traced

end Concolic
