/-
# The conversation with the engine

What a harvest exchanges with the engine has an opening and then one block of queries for each
state:

* the opening loads the program, enters it with the bound inputs, and explores from the state
  that was entered; it is cut short by the first error;
* the blocks are interviews about the states in order, each about one state only; a block is
  cut short by its first failure, and the conversation by the first failure that does not
  concern the state alone.

`Conversed` describes such conversations apart from the work that holds them.
-/
import Concolic.Proofs.Run.Failure

namespace Concolic

variable {P S σ : Type}

/-- A conversation about a configuration that comes to the harvest or to the error: its opening
and its interviews. -/
inductive Conversed (policy : Policy) (c : Configuration) :
    List (Exchange P S) → List (Interview P S) → Except RunError Harvest → Prop
  /-- The inputs cannot be bound, so nothing is asked. -/
  | unbound {gap : BindingGap} : c.bind.result = .error gap →
    Conversed policy c [] [] (.error (.binding gap))
  /-- The program cannot be loaded. -/
  | notLoaded {b : BoundInputs} {e : EngineError} : c.bind.result = .ok b →
    Conversed policy c [⟨.load c.executable, .error e⟩] [] (.error (.engine e))
  /-- The loaded program cannot be entered with the bound arguments and files. -/
  | notEntered {b : BoundInputs} {project : P} {e : EngineError} : c.bind.result = .ok b →
    Conversed policy c [⟨.load c.executable, .ok project⟩,
      ⟨.entryState project b.arguments (b.files ++ b.standardInput.toList), .error e⟩]
      [] (.error (.engine e))
  /-- Nothing can be explored from the state that was entered. -/
  | notExplored {b : BoundInputs} {project : P} {entry : S} {e : EngineError} :
    c.bind.result = .ok b →
    Conversed policy c [⟨.load c.executable, .ok project⟩,
      ⟨.entryState project b.arguments (b.files ++ b.standardInput.toList), .ok entry⟩,
      ⟨.explore entry policy, .error e⟩] [] (.error (.engine e))
  /-- The states that were found are asked about, those that have come to an end first. -/
  | explored {b : BoundInputs} {project : P} {entry : S} {found : Exploration S}
      {interviews : List (Interview P S)} {r : Except EngineError Harvest} :
    c.bind.result = .ok b →
    Conducted c.concolicInputs (found.terminated ++ found.runnable) interviews r →
    Conversed policy c [⟨.load c.executable, .ok project⟩,
      ⟨.entryState project b.arguments (b.files ++ b.standardInput.toList), .ok entry⟩,
      ⟨.explore entry policy, .ok found⟩] interviews (r.mapError .engine)

/-- The questions about a state are those about the bound inputs: the symbolic arguments in the
order of the argument vector, then the files, and at last the standard input. -/
lemma Configuration.questions_concolicInputs {c : Configuration} {b : BoundInputs}
    (h : c.bound = .ok b) :
    c.concolicInputs.map Input.question
      = b.unknownArguments.map .bytes ++ (b.files ++ b.standardInput.toList).map .content := by
  obtain ⟨-, hfiles, hstd⟩ := eq_of_bound_eq_ok h
  rw [unknownArguments_of_bound h, hfiles, hstd, concolicInputs]
  cases c.standardInput <;>
    simp [List.map_map, Function.comp_def, Input.question, Argument.unknown,
      InputFile.simulated, SimulatedFile.standardInput]

namespace Conversed

variable {policy : Policy} {c : Configuration} {opening : List (Exchange P S)}
  {interviews : List (Interview P S)} {r : Except RunError Harvest}

lemma covers (h : Conversed policy c opening interviews r) :
    ∀ x ∈ interviews, x.Covers c.concolicInputs := by
  cases h with
  | unbound | notLoaded | notEntered | notExplored => simp
  | explored _ hx => exact hx.covers

/-- A conversation ends at the first error of its opening, and at the first failure of a query
that does not concern a state alone. -/
lemma endsAt_isFatal (h : Conversed policy c opening interviews r) :
    EndsAt Exchange.IsFatal (opening ++ interviews.flatMap Interview.exchanges) := by
  -- a call that succeeds is not fatal, so only the last call of an opening can be
  have hok : ∀ (call : Call P S) (a : call.Answer), ¬ (Exchange.mk call (.ok a)).IsFatal := by
    rintro call a ⟨e, hfail, -⟩
    exact absurd hfail (by simp)
  cases h with
  | unbound => exact endsAt_nil
  | notLoaded => exact endsAt_singleton
  | notEntered => exact EndsAt.cons (hok _ _) endsAt_singleton
  | notExplored => exact EndsAt.cons (hok _ _) (EndsAt.cons (hok _ _) endsAt_singleton)
  | explored _ hx =>
    exact EndsAt.cons (hok _ _) (EndsAt.cons (hok _ _) (EndsAt.cons (hok _ _) hx.endsAt_isFatal))

/-- Nothing is exchanged about inputs that cannot be bound. -/
lemma eq_nil_of_unbound {gap : BindingGap} (h : Conversed policy c opening interviews r)
    (hgap : c.bind.result = .error gap) : opening = [] ∧ interviews = [] := by
  cases h with
  | unbound => exact ⟨rfl, rfl⟩
  | notLoaded hb | notEntered hb | notExplored hb | explored hb =>
    exact absurd (hgap.symm.trans hb) (by simp)

end Conversed

variable {m : Machine P S σ}

/-- A harvest holds a conversation, whatever the engine. -/
lemma conversed_of_runOn {policy : Policy} {c : Configuration} {r : Except RunError Harvest}
    {h h' : Host P S σ} (hw : (harvest policy c).runOn m h = (r, h')) :
    ∃ opening interviews, Conversed policy c opening interviews r ∧
      h'.exchanges = h.exchanges ++ (opening ++ interviews.flatMap Interview.exchanges) := by
  -- each step of the opening ends the conversation or leads to the next one
  rcases Work.runOn_bind_cases hw with ⟨e, rfl, hbind⟩ | ⟨b, h₁, hbind, hw₁⟩
  · obtain ⟨gap, hgap, rfl, rfl⟩ := Work.traced_runOn_eq_error hbind
    exact ⟨[], [], .unbound hgap, by simp⟩
  obtain ⟨hbound, rfl⟩ := Work.traced_runOn_eq_ok hbind
  rcases Work.runOn_bind_cases hw₁ with ⟨e, rfl, hload⟩ | ⟨project, h₂, hload, hw₂⟩
  · obtain ⟨cause, rfl, hex⟩ := Work.demand_runOn_eq_error hload
    exact ⟨_, [], .notLoaded hbound, by rw [hex]; rfl⟩
  have hex₂ := Work.demand_runOn_eq_ok hload
  rcases Work.runOn_bind_cases hw₂ with ⟨e, rfl, hentry⟩ | ⟨entry, h₃, hentry, hw₃⟩
  · obtain ⟨cause, rfl, hex⟩ := Work.demand_runOn_eq_error hentry
    exact ⟨_, [], .notEntered hbound, by rw [hex, hex₂, List.append_assoc]; rfl⟩
  have hex₃ := Work.demand_runOn_eq_ok hentry
  obtain ⟨_, h₄, htell, hw₄⟩ := (Work.runOn_bind_cases hw₃).resolve_left (by simp)
  have hex₄ := (Work.keeps_exchanges_tell _).of_runOn htell
  rcases Work.runOn_bind_cases hw₄ with ⟨e, rfl, hexplore⟩ | ⟨found, h₅, hexplore, hw₅⟩
  · obtain ⟨cause, rfl, hex⟩ := Work.demand_runOn_eq_error hexplore
    refine ⟨[⟨.load c.executable, .ok project⟩, ⟨.entryState project b.arguments b.fileTable,
      .ok entry⟩, ⟨.explore entry policy, .error cause⟩], [], .notExplored hbound, ?_⟩
    rw [hex, hex₄, hex₃, hex₂, List.append_assoc, List.append_assoc]
    rfl
  have hex₅ := Work.demand_runOn_eq_ok hexplore
  obtain ⟨_, h₆, htell', hw₆⟩ := (Work.runOn_bind_cases hw₅).resolve_left (by simp)
  have hex₆ := (Work.keeps_exchanges_tell _).of_runOn htell'
  have hb : c.bound = .ok b := Configuration.bind_result.symm.trans hbound
  obtain ⟨interviews, r', h₇, hrun, hconducted, hex₇⟩ :=
    collectAll_runOn (m := m) hb found.states h₆
  obtain ⟨rfl, rfl⟩ := Prod.mk.inj (hw₆.symm.trans hrun)
  refine ⟨[⟨.load c.executable, .ok project⟩, ⟨.entryState project b.arguments b.fileTable,
    .ok entry⟩, ⟨.explore entry policy, .ok found⟩], interviews, .explored hbound hconducted, ?_⟩
  rw [hex₇, hex₆, hex₅, hex₄, hex₃, hex₂]
  simp only [List.append_assoc, List.cons_append, List.nil_append]
  rfl

/-- **The engine is called by a protocol.**  Whatever the configuration and the engine, the
calls of a harvest are an opening and then one block of queries for each state, as `Conversed`
says; the queries of a block are all about its state, and its first failure is its last
exchange; nothing is asked after the first error of the opening or the first failure that does
not concern a state alone, and nothing at all if the inputs cannot be bound. -/
theorem harvest_holds_conversation (m : Machine P S σ) (h : Host P S σ) (policy : Policy)
    (c : Configuration) :
    ∃ (opening : List (Exchange P S)) (interviews : List (Interview P S)),
      Conversed policy c opening interviews ((harvest policy c).runOn m h).1 ∧
      ((harvest policy c : Work P S Harvest).runOn m h).2.exchanges
        = h.exchanges ++ (opening ++ interviews.flatMap Interview.exchanges) ∧
      (∀ b, c.bind.result = .ok b → c.concolicInputs.map Input.question
        = b.unknownArguments.map .bytes ++ (b.files ++ b.standardInput.toList).map .content) ∧
      (∀ x ∈ interviews, x.Covers c.concolicInputs ∧
        (∀ q ∈ x.exchanges, q.call.subject? = some x.state) ∧
        EndsAt Exchange.Fails x.exchanges) ∧
      EndsAt Exchange.IsFatal (opening ++ interviews.flatMap Interview.exchanges) ∧
      (∀ gap, c.bind.result = .error gap →
        ((harvest policy c : Work P S Harvest).runOn m h).2.exchanges = h.exchanges) := by
  rcases hrun : (harvest policy c : Work P S Harvest).runOn m h with ⟨r, h'⟩
  obtain ⟨opening, interviews, hconv, hex⟩ := conversed_of_runOn hrun
  refine ⟨opening, interviews, hconv, hex, ?_, ?_, hconv.endsAt_isFatal, ?_⟩
  · intro b hb
    exact Configuration.questions_concolicInputs (Configuration.bind_result.symm.trans hb)
  · intro x hx
    have hcovers := hconv.covers x hx
    exact ⟨hcovers, Interviewed.subject hcovers, Interviewed.endsAt_fails hcovers⟩
  · intro gap hgap
    obtain ⟨rfl, rfl⟩ := hconv.eq_nil_of_unbound hgap
    simpa using hex

end Concolic
