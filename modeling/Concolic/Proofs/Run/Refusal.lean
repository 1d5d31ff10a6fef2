/-
# Harvests do not look at the reasons of refusals

A failure that concerns a state alone may reach a harvest as it is, or as a refusal with some
wording.  The harvest then goes on in the same way: it makes the same calls, it comes to the
same outcomes, and it skips the same states; only what it tells is worded otherwise.

Two actions that go on side by side, where the second gets refusals in the place of the
failures of the first, are described by `Action.Alongside`.  It is shown for a harvest and
itself along the way in which the harvest is put together.
-/
import Concolic.Run.Harvest
import Concolic.Proofs.Engine.Encoding
import Concolic.Proofs.Run.Failure

namespace Concolic

variable {P S α β γ δ : Type}

/-! ## Results that correspond -/

/-- Both results are values or both are errors, and these are related. -/
inductive Corresponds {ε ε' : Type} (E : ε → ε' → Prop) (Q : α → β → Prop) :
    Except ε α → Except ε' β → Prop
  | ok {a : α} {b : β} : Q a b → Corresponds E Q (.ok a) (.ok b)
  | error {e : ε} {e' : ε'} : E e e' → Corresponds E Q (.error e) (.error e')

/-- If equal values correspond, and errors correspond to what they are turned into, then the
second result is what the first one is turned into. -/
lemma Corresponds.eq_mapError {ε ε' : Type} {f : ε → ε'} {r : Except ε α} {r' : Except ε' α}
    (h : Corresponds (fun e e' => e' = f e) Eq r r') : r' = r.mapError f := by
  cases h with
  | ok h => rw [h, Except.mapError]
  | error h => rw [h, Except.mapError]

/-- The second failure is the refusal that the first one, which concerns a state, is turned
into. -/
def EngineError.Refused (wording : EngineError → String) (e e' : EngineError) : Prop :=
  e.ConcernsState ∧ e' = Reply.refusal wording e

/-- The errors are those of the same input, for a failure and for the refusal in its place. -/
def CollectError.Refused (wording : EngineError → String) (e e' : CollectError) : Prop :=
  ∃ name cause cause', EngineError.Refused wording cause cause' ∧ e = .unresolved name cause ∧
    e' = .unresolved name cause'

/-- A failed query for an input leaves the input unresolved in both cases. -/
lemma CollectError.refused_ofQuery {wording : EngineError → String} (name : String)
    {e e' : EngineError} (h : EngineError.Refused wording e e') :
    Refused wording (.ofQuery name e) (.ofQuery name e') := by
  obtain ⟨hscope, rfl⟩ := h
  refine ⟨name, e, _, ⟨hscope, rfl⟩, ?_, rfl⟩
  rw [ofQuery, if_pos (EngineError.isOutcomeScoped_iff.mpr hscope)]

/-- The error of a run that gets a refusal in the place of a failure of the engine. -/
def RunError.refused (wording : EngineError → String) : RunError → RunError
  | .engine cause => .engine (Reply.refusal wording cause)
  | e => e

/-! ## Actions side by side -/

/-- The actions make the same calls, the second one getting refusals in the place of failures,
and their values are related.  What they tell is of no account. -/
inductive Action.Alongside (wording : EngineError → String) (R : α → β → Prop) :
    Action P S α → Action P S β → Prop
  | done {a : α} {b : β} : R a b → Alongside wording R (.done a) (.done b)
  | ask {c : Call P S} {next : Except EngineError c.Answer → Action P S α}
    {next' : Except EngineError c.Answer → Action P S β} :
    (∀ a a', Corresponds (EngineError.Refused wording) Eq a a' →
      Alongside wording R (next a) (next' a')) →
    Alongside wording R (.step (.ask c) next) (.step (.ask c) next')
  | tell {event event' : Log.Event} {next : Unit → Action P S α} {next' : Unit → Action P S β} :
    Alongside wording R (next ()) (next' ()) →
    Alongside wording R (.step (.tell event) next) (.step (.tell event') next')

variable {wording : EngineError → String}

lemma Action.Alongside.bind {R : α → β → Prop} {R' : γ → δ → Prop} {x : Action P S α}
    {y : Action P S β} {f : α → Action P S γ} {g : β → Action P S δ}
    (hxy : Alongside wording R x y) (hfg : ∀ a b, R a b → Alongside wording R' (f a) (g b)) :
    Alongside wording R' (x >>= f) (y >>= g) := by
  show Alongside wording R' (x.bind f) (y.bind g)
  induction hxy with
  | done h => exact hfg _ _ h
  | ask _ ih => exact .ask ih
  | tell _ ih => exact .tell ih

namespace Work

/-- Work that is done side by side fails side by side, or comes to related values. -/
def Alongside (wording : EngineError → String) (Q : α → β → Prop) (w : Work P S α)
    (w' : Work P S β) : Prop :=
  Action.Alongside wording (Corresponds (fun e e' => e' = e.refused wording) Q) w.run w'.run

variable {Q : α → β → Prop} {Q' : γ → δ → Prop} {w : Work P S α} {w' : Work P S β}

lemma alongside_pure {a : α} {b : β} (h : Q a b) :
    Alongside wording Q (pure a : Work P S α) (pure b) := .done (.ok h)

lemma Alongside.bind {f : α → Work P S γ} {g : β → Work P S δ} (hw : Alongside wording Q w w')
    (hfg : ∀ a b, Q a b → Alongside wording Q' (f a) (g b)) :
    Alongside wording Q' (w >>= f) (w' >>= g) := by
  refine Action.Alongside.bind hw fun r r' hr => ?_
  cases hr with
  | ok h => exact hfg _ _ h
  | error h =>
    -- nothing is done after an error
    exact .done (.error h)

lemma alongside_tell (event event' : Log.Event) :
    Alongside wording Eq (tell event : Work P S Unit) (tell event') := .tell (.done (.ok rfl))

lemma alongside_call (c : Call P S) :
    Alongside wording (Corresponds (EngineError.Refused wording) Eq) (call c) (call c) :=
  .ask fun _ _ h => .done (.ok h)

lemma alongside_demand (c : Call P S) : Alongside wording Eq (demand c) (demand c) := by
  refine (alongside_call c).bind fun a a' h => ?_
  cases h with
  | ok h => exact .done (.ok h)
  | error h =>
    obtain ⟨-, rfl⟩ := h
    exact .done (.error rfl)

lemma alongside_orFail {ε : Type} {toError : ε → RunError} (r : Except ε α)
    (h : ∀ e, toError e = (toError e).refused wording) :
    Alongside wording Eq (orFail toError r : Work P S α) (orFail toError r) := by
  rcases r with e | a
  · exact .done (.error (h e))
  · exact .done (.ok rfl)

lemma alongside_forM_tell (events : List Log.Event) :
    Alongside wording Eq (events.forM tell : Work P S Unit) (events.forM tell) := by
  induction events with
  | nil => exact alongside_pure rfl
  | cons event rest ih =>
    show Alongside wording Eq (do tell event; rest.forM tell) (do tell event; rest.forM tell)
    exact (alongside_tell event event).bind fun _ _ _ => ih

lemma alongside_traced {ε : Type} {toError : ε → RunError} (x : Traced ε α)
    (h : ∀ e, toError e = (toError e).refused wording) :
    Alongside wording Eq (traced toError x : Work P S α) (traced toError x) :=
  (alongside_forM_tell x.events).bind fun _ _ _ => alongside_orFail x.result h

end Work

/-! ## A harvest and itself -/

open Work

lemma alongside_askContent (state : S) (path : String) :
    Alongside wording (Corresponds (EngineError.Refused wording) Eq)
      (askContent state path : Work P S _) (askContent state path) := by
  refine (alongside_call (.lookupDescriptor state path)).bind fun a a' h => ?_
  cases h with
  | error h => exact alongside_pure (.error h)
  | @ok descriptor _ h =>
    obtain rfl := h
    rcases descriptor with _ | descriptor
    · exact (alongside_tell _ _).bind fun _ _ _ => alongside_call (.dumpPath state path)
    · exact (alongside_tell _ _).bind fun _ _ _ =>
        alongside_call (.dumpDescriptor state descriptor)

lemma alongside_askValue (state : S) (question : Question) :
    Alongside wording (Corresponds (EngineError.Refused wording) Eq)
      (askValue state question : Work P S _) (askValue state question) := by
  cases question with
  | bytes unknown => exact alongside_call (.solve state unknown)
  | content file => exact alongside_askContent state file.path

/-- The first input that is not answered is the same. -/
lemma alongside_askValues (state : S) (inputs : List (Input × Question)) :
    Alongside wording (Corresponds (CollectError.Refused wording) Eq)
      (askValues state inputs : Work P S _) (askValues state inputs) := by
  induction inputs with
  | nil => exact alongside_pure (.ok rfl)
  | cons head rest ih =>
    obtain ⟨input, question⟩ := head
    refine (alongside_askValue state question).bind fun a a' h => ?_
    cases h with
    | @error e e' h => exact alongside_pure (.error (CollectError.refused_ofQuery input.name h))
    | @ok value _ h =>
      obtain rfl := h
      refine ih.bind fun r r' hr => ?_
      cases hr with
      | error h => exact alongside_pure (.error h)
      | @ok values _ h =>
        obtain rfl := h
        exact alongside_pure (.ok rfl)

lemma alongside_collect (state : S) (c : Configuration) (b : BoundInputs) :
    Alongside wording (Corresponds (CollectError.Refused wording) Eq)
      (collect state c b : Work P S _) (collect state c b) := by
  refine (alongside_askValues state (questions c b)).bind fun r r' hr => ?_
  cases hr with
  | error h => exact alongside_pure (.error h)
  | @ok values _ h =>
    obtain rfl := h
    exact alongside_pure (.ok rfl)

/-- The same states are skipped. -/
lemma alongside_collectAll (c : Configuration) (b : BoundInputs) (states : List S) :
    Alongside wording Eq (collectAll c b states : Work P S _) (collectAll c b states) := by
  induction states with
  | nil => exact alongside_pure rfl
  | cons state rest ih =>
    refine (alongside_collect state c b).bind fun r r' hr => ?_
    cases hr with
    | @ok outcome _ h =>
      obtain rfl := h
      refine ih.bind fun v v' hv => ?_
      obtain rfl := hv
      exact alongside_pure rfl
    | error h =>
      -- both skip the state, and only tell different reasons
      obtain ⟨name, cause, cause', -, rfl, rfl⟩ := h
      refine (alongside_tell _ _).bind fun _ _ _ => ih.bind fun v v' hv => ?_
      obtain rfl := hv
      exact alongside_pure rfl

/-- **A harvest and itself.**  It makes the same calls if it gets refusals in the place of
failures, and comes to the same. -/
lemma alongside_harvest (policy : Policy) (c : Configuration) :
    Alongside wording Eq (harvest policy c : Work P S _) (harvest policy c) := by
  refine (alongside_traced c.bind fun _ => rfl).bind fun b b' hb => ?_
  obtain rfl := hb
  refine (alongside_demand (.load c.executable)).bind fun project project' hproject => ?_
  obtain rfl := hproject
  refine (alongside_demand (.entryState project b.arguments b.fileTable)).bind
    fun entry entry' hentry => ?_
  obtain rfl := hentry
  refine (alongside_tell _ _).bind fun _ _ _ =>
    (alongside_demand (.explore entry policy)).bind fun found found' hfound => ?_
  obtain rfl := hfound
  exact (alongside_tell _ _).bind fun _ _ _ => alongside_collectAll c b found.states

end Concolic
