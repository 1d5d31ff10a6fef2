/-
# Carrying work out

Work is a tree of steps, and carrying it out follows one branch of the tree.  What is stated
here replaces that tree by its effect on the surroundings: one statement for every way in
which work is put together, and one for every single step.

A part of the surroundings that no step touches is the same after the work as before it, which
is what `Work.Keeps` says; it is shown for pieces of work along the way they are put together.
-/
import Concolic.Run.Host
import Mathlib.Tactic.Common

namespace Concolic

variable {P S σ α β τ : Type} {m : Machine P S σ} {h h' : Host P S σ}

namespace Host

/-! ## Steps that touch no files -/

lemma files_perform_launch (command : EngineCommand) :
    (h.perform m (.launch command)).2.files = h.files := by
  rcases hl : m.launch h.launches command with ⟨_ | _, _⟩ <;> simp [perform, hl]

lemma files_perform_ask (call : Call P S) : (h.perform m (.ask call)).2.files = h.files := by
  rcases hs : h.session with _ | s <;> simp [perform, hs]

lemma files_perform_close : (h.perform m .close).2.files = h.files := by
  rcases hs : h.session with _ | s <;> simp [perform, hs]

end Host

namespace Action

instance : LawfulMonad (Action P S) := by
  have hassoc : ∀ {α β γ : Type} (x : Action P S α) (f : α → Action P S β)
      (g : β → Action P S γ), (x.bind f).bind g = x.bind fun a => (f a).bind g := by
    intro α β γ x f g
    induction x with
    | done a => rfl
    | step op next ih =>
      simp only [Action.bind]
      exact congrArg (step op) (funext ih)
  have hpure : ∀ {α : Type} (x : Action P S α), x.bind (fun a => .done a) = x := by
    intro α x
    induction x with
    | done a => rfl
    | step op next ih =>
      simp only [Action.bind]
      exact congrArg (step op) (funext ih)
  exact LawfulMonad.mk' _ hpure (fun _ _ => rfl) hassoc

lemma run_bind (x : Action P S α) (f : α → Action P S β) :
    (x >>= f).run m h = (f (x.run m h).1).run m (x.run m h).2 := by
  show (x.bind f).run m h = _
  induction x generalizing h with
  | done a => rfl
  | step op next ih =>
    rw [Action.bind, run, run]
    exact ih _

lemma run_step (op : Operation P S) (next : op.Answer → Action P S α) :
    (step op next).run m h = (next (h.perform m op).1).run m (h.perform m op).2 := rfl

/-- No step moves the clock. -/
lemma stamp_run (x : Action P S α) : (x.run m h).2.stamp = h.stamp := by
  have hstep : ∀ (op : Operation P S) (h : Host P S σ), (h.perform m op).2.stamp = h.stamp := by
    intro op h
    cases op with
    | file op => rfl
    | launch command => rcases hl : m.launch h.launches command with ⟨_ | _, _⟩ <;>
        simp [Host.perform, hl]
    | ask call => rcases hs : h.session with _ | s <;> simp [Host.perform, hs]
    | close => rcases hs : h.session with _ | s <;> simp [Host.perform, hs]
    | tell event => rfl
    | print text => rfl
    | stamp => rfl
  induction x generalizing h with
  | done a => rfl
  | step op next ih => exact (ih _).trans (hstep op h)

end Action

namespace Work

/-! ## Steps in a row -/

@[simp] lemma runOn_pure (a : α) : (pure a : Work P S α).runOn m h = (.ok a, h) := rfl

/-- The second of two pieces of work starts from what the first one has left, unless the first
one fails. -/
lemma runOn_bind (w : Work P S α) (f : α → Work P S β) :
    (w >>= f).runOn m h = match w.runOn m h with
      | (.ok a, h') => (f a).runOn m h'
      | (.error e, h') => (.error e, h') := by
  show Action.run m h (w.run >>= ExceptT.bindCont f) = _
  rw [Action.run_bind]
  unfold runOn
  rcases hw : Action.run m h w.run with ⟨e | a, h'⟩
  · rfl
  · rfl

lemma runOn_bind_eq_ok_iff {w : Work P S α} {f : α → Work P S β} {b : β} :
    (w >>= f).runOn m h = (.ok b, h') ↔
      ∃ a h₁, w.runOn m h = (.ok a, h₁) ∧ (f a).runOn m h₁ = (.ok b, h') := by
  rw [runOn_bind]
  rcases hw : w.runOn m h with ⟨e | a, h₁⟩
  · simp
  · constructor
    · intro hf
      exact ⟨a, h₁, rfl, hf⟩
    · rintro ⟨a', h₁', heq, hf⟩
      obtain ⟨ha, rfl⟩ := Prod.mk.inj heq
      obtain rfl := Except.ok.inj ha
      exact hf

/-- Work that succeeds makes way for the work after it. -/
lemma runOn_of_bind {w : Work P S α} {f : α → Work P S β} {r : Except RunError β} {a : α}
    {h₁ : Host P S σ} (hw : (w >>= f).runOn m h = (r, h')) (ha : w.runOn m h = (.ok a, h₁)) :
    (f a).runOn m h₁ = (r, h') := by
  rwa [runOn_bind, ha] at hw

/-- Two pieces of work in a row end with the first one, which fails, or with the second one. -/
lemma runOn_bind_cases {w : Work P S α} {f : α → Work P S β} {r : Except RunError β}
    (hw : (w >>= f).runOn m h = (r, h')) :
    (∃ e, r = .error e ∧ w.runOn m h = (.error e, h')) ∨
      ∃ a h₁, w.runOn m h = (.ok a, h₁) ∧ (f a).runOn m h₁ = (r, h') := by
  rw [runOn_bind] at hw
  rcases hfirst : w.runOn m h with ⟨e | a, h₁⟩
  · rw [hfirst] at hw
    obtain ⟨rfl, rfl⟩ := Prod.mk.inj hw
    exact .inl ⟨e, rfl, rfl⟩
  · rw [hfirst] at hw
    exact .inr ⟨a, h₁, rfl, hw⟩

/-! ## Single steps -/

/-- An action that cannot fail is carried out as it is. -/
lemma runOn_lift (x : Action P S α) :
    Work.runOn m h (ExceptT.lift x) = (.ok (x.run m h).1, (x.run m h).2) :=
  Action.run_bind x _

@[simp] lemma runOn_file (op : FileOperation) :
    (file op : Work P S op.Answer).runOn m h
      = (.ok (op.run h.files).1, { h with files := (op.run h.files).2 }) := rfl

@[simp] lemma runOn_tell (e : Log.Event) :
    (tell e : Work P S Unit).runOn m h = (.ok (), { h with events := h.events ++ [e] }) := rfl

@[simp] lemma runOn_orFail {ε : Type} (toError : ε → RunError) (r : Except ε α) :
    (orFail toError r : Work P S α).runOn m h = (r.mapError toError, h) := rfl

/-- A step that may fail has not failed. -/
lemma runOn_orFail_eq_ok_iff {ε : Type} {toError : ε → RunError} {r : Except ε α} {a : α} :
    (orFail toError r : Work P S α).runOn m h = (.ok a, h') ↔ r = .ok a ∧ h' = h := by
  rw [runOn_orFail]
  rcases r with e | a' <;> simp [Except.mapError, eq_comm]

lemma runOn_file_eq_ok_iff {op : FileOperation} {a : op.Answer} :
    (file op : Work P S op.Answer).runOn m h = (.ok a, h') ↔
      op.run h.files = (a, h'.files) ∧ h' = { h with files := h'.files } := by
  rw [runOn_file]
  constructor
  · intro heq
    obtain ⟨ha, rfl⟩ := Prod.mk.inj heq
    exact ⟨Prod.ext (Except.ok.inj ha) rfl, rfl⟩
  · rintro ⟨hrun, hh⟩
    rw [hrun, hh]

lemma runOn_forM_tell (f : β → Log.Event) (l : List β) :
    (l.forM fun b => tell (f b) : Work P S Unit).runOn m h
      = (.ok (), { h with events := h.events ++ l.map f }) := by
  induction l generalizing h with
  | nil =>
    show (pure () : Work P S Unit).runOn m h = _
    simp
  | cons b l ih =>
    show (tell (f b) >>= fun _ => l.forM fun b => tell (f b) : Work P S Unit).runOn m h = _
    rw [runOn_bind, runOn_tell]
    simp only
    rw [ih]
    simp

lemma runOn_tells (events : List Log.Event) :
    (events.forM tell : Work P S Unit).runOn m h
      = (.ok (), { h with events := h.events ++ events }) := by
  have htell := runOn_forM_tell (m := m) (h := h) id events
  rwa [List.map_id] at htell

@[simp] lemma runOn_traced {ε : Type} (toError : ε → RunError) (x : Traced ε α) :
    (traced toError x : Work P S α).runOn m h
      = (x.result.mapError toError, { h with events := h.events ++ x.events }) := by
  rw [traced, runOn_bind, runOn_tells]
  rfl

/-- Work that tells the events of a step ends as the step does. -/
lemma traced_runOn_eq_ok {ε : Type} {toError : ε → RunError} {x : Traced ε α} {a : α}
    (ht : (traced toError x : Work P S α).runOn m h = (.ok a, h')) :
    x.result = .ok a ∧ h' = { h with events := h.events ++ x.events } := by
  rw [runOn_traced] at ht
  obtain ⟨hr, rfl⟩ := Prod.mk.inj ht
  rcases hx : x.result with e | a'
  · simp [hx, Except.mapError] at hr
  · rw [hx] at hr
    exact ⟨congrArg _ (Except.ok.inj hr), rfl⟩

lemma traced_runOn_eq_error {ε : Type} {toError : ε → RunError} {x : Traced ε α} {e : RunError}
    (ht : (traced toError x : Work P S α).runOn m h = (.error e, h')) :
    ∃ cause, x.result = .error cause ∧ e = toError cause ∧
      h' = { h with events := h.events ++ x.events } := by
  rw [runOn_traced] at ht
  obtain ⟨hr, rfl⟩ := Prod.mk.inj ht
  rcases hx : x.result with cause | a
  · rw [hx] at hr
    exact ⟨cause, rfl, (Except.error.inj hr).symm, rfl⟩
  · simp [hx, Except.mapError] at hr

lemma runOn_call (c : Call P S) :
    (call c).runOn m h = (.ok (h.perform m (.ask c)).1, (h.perform m (.ask c)).2) := rfl

/-- A call is answered, and the account of the calls grows by the answer. -/
lemma call_runOn (c : Call P S) :
    ∃ answer h', (call c).runOn m h = (.ok answer, h')
      ∧ h'.exchanges = h.exchanges ++ [⟨c, answer⟩] := by
  refine ⟨_, _, runOn_call c, ?_⟩
  rcases hs : h.session with _ | s <;> simp [Host.perform, hs]

lemma demand_runOn_eq_ok {c : Call P S} {a : c.Answer} (hd : (demand c).runOn m h = (.ok a, h')) :
    h'.exchanges = h.exchanges ++ [⟨c, .ok a⟩] := by
  rw [demand, runOn_bind_eq_ok_iff] at hd
  obtain ⟨answer, h₁, hcall, hfail⟩ := hd
  obtain ⟨answer', h₁', hcall', hex⟩ := call_runOn (m := m) (h := h) c
  rw [hcall] at hcall'
  obtain ⟨hans, rfl⟩ := Prod.mk.inj hcall'
  obtain rfl := Except.ok.inj hans
  obtain ⟨rfl, rfl⟩ := runOn_orFail_eq_ok_iff.mp hfail
  exact hex

/-- A call that succeeds is exchanged, and the engine moves on. -/
lemma demand_runOn_of_ok {c : Call P S} {a : c.Answer} {before after : σ}
    (hs : h.session = some before) (ha : m.engine.answer c before = (.ok a, after)) :
    (demand c).runOn m h = (.ok a, { h with
      session := some after, exchanges := h.exchanges ++ [⟨c, .ok a⟩] }) := by
  rw [demand, runOn_bind, runOn_call]
  simp only [Host.perform, hs, ha, runOn_orFail]
  rfl

lemma demand_runOn_eq_error {c : Call P S} {e : RunError}
    (hd : (demand c).runOn m h = (.error e, h')) :
    ∃ cause, e = .engine cause ∧ h'.exchanges = h.exchanges ++ [⟨c, .error cause⟩] := by
  obtain ⟨answer, h₁, hcall, hex⟩ := call_runOn (m := m) (h := h) c
  rw [demand, runOn_bind, hcall] at hd
  obtain ⟨hfail, rfl⟩ := Prod.mk.inj hd
  rcases answer with cause | a
  · exact ⟨cause, (Except.error.inj hfail).symm, hex⟩
  · exact absurd hfail (by simp [Except.mapError])

/-! ## What work leaves alone -/

/-- Whatever the surroundings, the work leaves a part of them as it is. -/
def Keeps (part : Host P S σ → τ) (w : Work P S α) : Prop :=
  ∀ (m : Machine P S σ) (h : Host P S σ), part (w.runOn m h).2 = part h

variable {part : Host P S σ → τ}

lemma Keeps.of_runOn {w : Work P S α} (hw : w.Keeps part) {r : Except RunError α}
    (hr : w.runOn m h = (r, h')) : part h' = part h := by
  have hk := hw m h
  rwa [hr] at hk

lemma keeps_pure (a : α) : (pure a : Work P S α).Keeps part := fun _ _ => rfl

lemma Keeps.bind {w : Work P S α} {f : α → Work P S β} (hw : w.Keeps part)
    (hf : ∀ a, (f a).Keeps part) : (w >>= f).Keeps part := by
  intro m h
  rw [runOn_bind]
  rcases hr : w.runOn m h with ⟨e | a, h'⟩
  · exact hw.of_runOn hr
  · exact (hf a m h').trans (hw.of_runOn hr)

lemma keeps_orFail {ε : Type} (toError : ε → RunError) (r : Except ε α) :
    (orFail toError r : Work P S α).Keeps part := fun _ _ => rfl

lemma keeps_files_tell (e : Log.Event) : (tell e : Work P S Unit).Keeps (σ := σ) Host.files :=
  fun _ _ => by rw [runOn_tell]

lemma keeps_exchanges_file (op : FileOperation) :
    (file op : Work P S op.Answer).Keeps (σ := σ) Host.exchanges :=
  fun _ _ => by rw [runOn_file]

lemma keeps_exchanges_tell (e : Log.Event) :
    (tell e : Work P S Unit).Keeps (σ := σ) Host.exchanges :=
  fun _ _ => by rw [runOn_tell]

lemma keeps_exchanges_traced {ε : Type} (toError : ε → RunError) (x : Traced ε α) :
    (traced toError x : Work P S α).Keeps (σ := σ) Host.exchanges :=
  fun _ _ => by rw [runOn_traced]

/-! ## Engines and the clock -/

lemma stamp_of_runOn {w : Work P S α} {r : Except RunError α}
    (hw : w.runOn m h = (r, h')) : h'.stamp = h.stamp := by
  have hstamp := Action.stamp_run (m := m) (h := h) w.run
  have hrun : Action.run m h w.run = (r, h') := hw
  rwa [hrun] at hstamp

/-- Work with an engine starts after the launch, or there is none. -/
lemma withEngine_runOn {command : EngineCommand} {w : Work P S α} {r : Except RunError α}
    (hr : (withEngine command w).runOn m h = (r, h')) :
    (∃ e, r = .error e ∧ h'.files = h.files) ∨
      ∃ h₁ h₂ : Host P S σ, h₁.files = h.files ∧ h₁.stamp = h.stamp ∧
        w.runOn m h₁ = (r, h₂) ∧ h'.files = h₂.files := by
  have hfiles := Host.files_perform_launch (m := m) (h := h) command
  have hstamp := Action.stamp_run (m := m) (h := h) (Action.ask (.launch command))
  have hstarted := runOn_of_bind hr (runOn_lift (Action.ask (.launch command)))
  rcases hlaunch : (Action.ask (.launch command)).run m h with ⟨started, h₁⟩
  have hperform : h.perform m (.launch command) = (started, h₁) := hlaunch
  rw [hperform] at hfiles
  rw [hlaunch] at hstamp hstarted
  rcases runOn_bind_cases hstarted with ⟨e, rfl, hfail⟩ | ⟨_, h₂, hdone, hwork⟩
  · obtain ⟨-, rfl⟩ := Prod.mk.inj hfail
    exact .inl ⟨e, rfl, hfiles⟩
  obtain ⟨-, rfl⟩ := runOn_orFail_eq_ok_iff.mp hdone
  -- the outcome of the work is kept while the engine is closed, and handed on after it
  have hworked := runOn_of_bind hwork (runOn_lift w.run)
  rcases hrun : w.runOn m h₂ with ⟨result, h₃⟩
  have hresult : Action.run m h₂ w.run = (result, h₃) := hrun
  rw [hresult] at hworked
  have hclosed := runOn_of_bind hworked (runOn_lift (Action.ask .close))
  obtain ⟨hend, rfl⟩ := Prod.mk.inj hclosed
  have hsame : result.mapError id = result := by cases result <;> rfl
  obtain rfl : result = r := hsame.symm.trans hend
  exact .inr ⟨h₂, h₃, hfiles, hstamp, hrun, Host.files_perform_close⟩

end Work

end Concolic
