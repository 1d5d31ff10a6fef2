/-
# The scope of failures

A failure that concerns only the state that was asked about costs the outcome of that state and
nothing else; any other failure ends the run with that failure.  There are two sides to this:

* within one run, the outcomes and the skipped states make up all states that were found, and
  a state is skipped exactly if a query about it fails;
* between two runs in which engines find the same states and answer queries by the query alone,
  what is answered about one state has no influence on the outcomes of the others.
-/
import Concolic.Proofs.Run.Collection
import Concolic.Proofs.Run.Isolation

namespace Concolic

variable {P S σ : Type} {m : Machine P S σ} {h h' : Host P S σ}

/-! ## Harvests that get to the states -/

/-- The inputs can be bound, and the engine that is running loads the program, enters it and
finds these states; then it is in the inner state `ready`. -/
def Host.Explores (m : Machine P S σ) (h : Host P S σ) (policy : Policy) (c : Configuration)
    (b : BoundInputs) (found : Exploration S) (ready : σ) : Prop :=
  c.bind.result = .ok b ∧ ∃ started loaded entered project entry,
    h.session = some started ∧
    m.engine.answer (.load c.executable) started = (.ok project, loaded) ∧
    m.engine.answer (.entryState project b.arguments b.fileTable) loaded = (.ok entry, entered) ∧
    m.engine.answer (.explore entry policy) entered = (.ok found, ready)

/-- All states have been asked about, those that have come to an end first, and this is what
the interviews about them come to: the outcomes of those in which no call fails, in their
order, and the number of the others. -/
structure Gathered (inputs : List Input) (found : Exploration S) (interviews : List (Interview P S))
    (v : Harvest) : Prop where
  /-- Each interview is about the inputs. -/
  covers : ∀ x ∈ interviews, x.Covers inputs
  /-- There is one interview for each state. -/
  states : interviews.map Interview.state = found.terminated ++ found.runnable
  /-- The calls of an interview are about its state. -/
  subject : ∀ x ∈ interviews, ∀ q ∈ x.exchanges, q.call.subject? = some x.state
  /-- The outcomes are those of the interviews. -/
  outcomes : v.outcomes = interviews.filterMap fun x => (x.outcome inputs).toOption
  /-- Only a call that fails costs an outcome. -/
  lost : ∀ x ∈ interviews, (x.outcome inputs).toOption = none ↔ ∃ q ∈ x.exchanges, q.Fails
  /-- No state is lost sight of. -/
  count : v.outcomes.length + v.skipped = found.terminated.length + found.runnable.length

section Harvests

variable {policy : Policy} {c : Configuration} {b : BoundInputs} {found : Exploration S}
  {ready : σ} {inputs : List Input} {xs : List (Interview P S)}

lemma Conducted.gathered {v : Harvest}
    (hc : Conducted inputs (found.terminated ++ found.runnable) xs (.ok v)) :
    Gathered inputs found xs v where
  covers := hc.covers
  states := hc.states_eq
  subject x hx := Interviewed.subject (hc.covers x hx)
  outcomes := by
    rw [hc.harvest_eq.1, Interview.complete, List.map_filterMap]
    refine congrArg (List.filterMap · xs) (funext fun x => ?_)
    rw [Interview.answers?, Interview.outcome]
    rcases x.result with ⟨i, e⟩ | answers <;> rfl
  lost x hx := (hc.covers x hx).toOption_outcome_eq_none_iff
  count := by rw [hc.harvest_eq.2, List.length_append]

/-- A harvest that gets to the states collects the outcomes of these states, and nothing is
exchanged before but its opening. -/
lemma Host.Explores.collectAll_of_runOn {r : Except RunError Harvest}
    (he : h.Explores m policy c b found ready) (hw : (harvest policy c).runOn m h = (r, h')) :
    ∃ h₁ project entry, (collectAll c b found.states).runOn m h₁ = (r, h') ∧
      h₁.session = some ready ∧
      h₁.exchanges = h.exchanges ++ [⟨.load c.executable, .ok project⟩,
        ⟨.entryState project b.arguments b.fileTable, .ok entry⟩,
        ⟨.explore entry policy, .ok found⟩] := by
  obtain ⟨hb, started, loaded, entered, project, entry, hs, hload, hentry, hexplore⟩ := he
  have hbind : (Work.traced .binding c.bind : Work P S BoundInputs).runOn m h
      = (.ok b, { h with events := h.events ++ c.bind.events }) := by
    rw [Work.runOn_traced, hb]
    rfl
  have hw₁ := Work.runOn_of_bind hw hbind
  have hw₂ := Work.runOn_of_bind hw₁ (Work.demand_runOn_of_ok hs hload)
  have hw₃ := Work.runOn_of_bind hw₂ (Work.demand_runOn_of_ok rfl hentry)
  have hw₄ := Work.runOn_of_bind hw₃ (Work.runOn_tell _)
  have hw₅ := Work.runOn_of_bind hw₄ (Work.demand_runOn_of_ok rfl hexplore)
  have hw₆ := Work.runOn_of_bind hw₅ (Work.runOn_tell _)
  refine ⟨_, project, entry, hw₆, rfl, ?_⟩
  simp only [List.append_assoc, List.cons_append, List.nil_append]
  rfl

/-- After its opening, such a harvest exchanges what its interviews exchange; if the engine then
answers by the query alone, these are its answers. -/
lemma Host.Explores.conducted_of_runOn {r : Except RunError Harvest}
    (he : h.Explores m policy c b found ready) (hw : (harvest policy c).runOn m h = (r, h')) :
    ∃ project entry xs r', r = r'.mapError .engine ∧
      Conducted c.concolicInputs (found.terminated ++ found.runnable) xs r' ∧
      h'.exchanges = h.exchanges ++ ([⟨.load c.executable, .ok project⟩,
        ⟨.entryState project b.arguments b.fileTable, .ok entry⟩,
        ⟨.explore entry policy, .ok found⟩] ++ xs.flatMap Interview.exchanges) ∧
      ∀ answers, m.engine.AnswersBy ready answers →
        AnsweredBy answers (xs.flatMap Interview.exchanges) := by
  obtain ⟨h₁, project, entry, hall, hready, hex₁⟩ := he.collectAll_of_runOn hw
  have hb : c.bound = .ok b := Configuration.bind_result.symm.trans he.1
  obtain ⟨xs, r', h₂, hrun, hconducted, hex⟩ := collectAll_runOn (m := m) hb found.states h₁
  obtain ⟨rfl, rfl⟩ := Prod.mk.inj (hall.symm.trans hrun)
  refine ⟨project, entry, xs, r', rfl, hconducted, ?_, ?_⟩
  · rw [hex, hex₁, List.append_assoc]
  · intro answers ha
    obtain ⟨-, y, -, -, hex', hy⟩ :=
      Action.answeredBy_of_uses (uses_isQuery_collectAll c b found.states) hready ha
    have hrun' : (Action.run m h₁ (collectAll c b found.states).run).2 = h' :=
      congrArg Prod.snd hrun
    rw [hrun', hex] at hex'
    rwa [List.append_cancel_left hex']

end Harvests

/-- **A failure costs the outcome of its state, or it ends the run.**  A harvest that gets to
the states succeeds exactly if all failures among the queries concern single states.  Then it
has gathered the outcomes of all states about which no query fails.  Otherwise the first failure
that does not concern a state alone is the error of the run, and there is no further failure.

Moreover, if two engines find the same states and answer queries by the query alone, with
different answers about one state only, then whatever the second engine answers about this
state, as long as none of its failures concerns more than the state: the second harvest succeeds
if the first one does, and it holds the same interviews about the other states, in the same
order. -/
theorem harvest_scopes_failures [DecidableEq S] {m : Machine P S σ} {h h' : Host P S σ}
    {policy : Policy} {c : Configuration} {b : BoundInputs} {found : Exploration S} {ready : σ}
    {r : Except RunError Harvest} (explores : h.Explores m policy c b found ready)
    (ran : (harvest policy c).runOn m h = (r, h')) :
    ∃ project entry interviews,
      h'.exchanges = h.exchanges ++ ([⟨.load c.executable, .ok project⟩,
        ⟨.entryState project b.arguments b.fileTable, .ok entry⟩,
        ⟨.explore entry policy, .ok found⟩] ++ interviews.flatMap Interview.exchanges) ∧
      ((∃ v, r = .ok v) ↔
        ∀ e ∈ failures (interviews.flatMap Interview.exchanges), e.ConcernsState) ∧
      (∀ v, r = .ok v → Gathered c.concolicInputs found interviews v) ∧
      (∀ before e after, failures (interviews.flatMap Interview.exchanges) = before ++ e :: after →
        ¬ e.ConcernsState →
          r = .error (.engine e) ∧ (∀ e' ∈ before, e'.ConcernsState) ∧ after = []) ∧
      ∀ {σ' : Type} (m' : Machine P S σ') (g : Host P S σ') (ready' : σ')
        (answers answers' : Answers P S) (other : S),
        m.engine.AnswersBy ready answers →
        g.Explores m' policy c b found ready' → m'.engine.AnswersBy ready' answers' →
        (∀ q s, q.subject? = some s → s ≠ other → answers' q = answers q) →
        (∀ q e, q.subject? = some other → answers' q = .error e → e.ConcernsState) →
        ∀ v, r = .ok v → ∃ v' g' interviews', (harvest policy c).runOn m' g = (.ok v', g') ∧
          Gathered c.concolicInputs found interviews' v' ∧
          interviews'.filter (·.state ≠ other) = interviews.filter (·.state ≠ other) := by
  obtain ⟨project, entry, interviews, r', rfl, hconducted, hex, hanswered⟩ :=
    explores.conducted_of_runOn ran
  have hok : ∀ v, r'.mapError RunError.engine = .ok v → r' = .ok v := by
    intro v hv
    rcases r' with e | v'
    · exact absurd hv (by simp [Except.mapError])
    · exact congrArg _ (Except.ok.inj hv)
  refine ⟨project, entry, interviews, hex, ⟨?_, ?_⟩, ?_, ?_, ?_⟩
  · rintro ⟨v, hv⟩
    rw [hok v hv] at hconducted
    exact hconducted.scoped_of_ok
  · intro hscope
    rcases r' with e | v
    · obtain ⟨hfatal, before, hbefore, -⟩ := hconducted.failures_of_error
      exact absurd (hscope e (by simp [hbefore])) hfatal
    · exact ⟨v, rfl⟩
  · intro v hv
    rw [hok v hv] at hconducted
    exact hconducted.gathered
  · intro before e after hsplit hfatal
    obtain ⟨rfl, hlast⟩ := hconducted.eq_error_of_not_scoped hsplit hfatal
    exact ⟨rfl, hlast⟩
  · intro σ' m' g ready' answers answers' other hanswers explores' hanswers' agree harmless v hv
    rw [hok v hv] at hconducted
    rcases hrun' : (harvest policy c).runOn m' g with ⟨s, g'⟩
    obtain ⟨-, -, interviews', s', rfl, hconducted', -, hanswered'⟩ :=
      explores'.conducted_of_runOn hrun'
    obtain ⟨⟨v', rfl⟩, hsame⟩ := hconducted.isolated hconducted' (hanswered answers hanswers)
      (hanswered' answers' hanswers') agree harmless
    exact ⟨v', g', interviews', rfl, hconducted'.gathered, hsame⟩

/-! ### Two states, of which the second one has no solution in the second run -/

/-- The calls that lead to the states apart, what a script has handed out stays as it is. -/
lemma Script.states_answer {c : Call Path Nat} (hc : c.subject? ≠ none) (s : Script) :
    (Script.answer c s).2.states = s.states := by
  cases c with
  | load | entryState | explore => exact absurd rfl hc
  | solve | lookupDescriptor | dumpDescriptor | dumpPath => rfl

/-- A script answers queries by the query alone. -/
lemma Script.answersBy (s : Script) :
    scriptedEngine.AnswersBy s fun c => (Script.answer c s).1 := by
  intro asked c hasked hc
  have hstates : (scriptedEngine.after s asked).states = s.states := by
    clear hc
    induction asked generalizing s with
    | nil => rfl
    | cons a asked ih =>
      obtain ⟨ha, hrest⟩ := List.forall_mem_cons.mp hasked
      exact (ih _ hrest).trans (s.states_answer ha)
  show (Script.answer c _).1 = (Script.answer c s).1
  cases c with
  | load | entryState | explore => exact absurd rfl hc
  | solve | lookupDescriptor | dumpDescriptor | dumpPath =>
    simp only [Script.answer, Script.ask, hstates]

/-- A host on which a script is played from its beginning; it will find two states. -/
def scopingHost (ended running : ScriptedState) : Host Path Nat Script :=
  { Host.new ⟨[], []⟩ "" with session := some (.new [ended] [running] none) }

/-- The script after the calls that lead to the states. -/
def scopingReady (ended running : ScriptedState) : Script :=
  scriptedEngine.after (.new [ended] [running] none) [.load sampleConfiguration.executable,
    .entryState sampleConfiguration.executable sampleBound.arguments sampleBound.fileTable,
    .explore Script.entryHandle .singleFork]

lemma scopingHost_explores (ended running : ScriptedState) :
    (scopingHost ended running).Explores scriptMachine .singleFork sampleConfiguration sampleBound
      ⟨[0], [1]⟩ (scopingReady ended running) :=
  ⟨by decide +kernel, _, _, _, _, _, rfl, rfl, rfl, rfl⟩

lemma states_scopingReady (ended running : ScriptedState) :
    (scopingReady ended running).states = [ended, running] := rfl

/-- Both states have an outcome in the first run.  In the second run there is no solution in the
state that can go on, and the other state still has its outcome. -/
theorem harvest_scopes_failures_sample :
    ∃ (v v' : Harvest) (interviews interviews' : List (Interview Path Nat)),
      ((harvest .singleFork sampleConfiguration).runOn scriptMachine
        (scopingHost sampleState sampleState)).1 = .ok v ∧ v.outcomes.length = 2 ∧
      Gathered sampleConfiguration.concolicInputs ⟨[0], [1]⟩ interviews v ∧
      ((harvest .singleFork sampleConfiguration).runOn scriptMachine
        (scopingHost sampleState ⟨[], [], []⟩)).1 = .ok v' ∧ v'.skipped = 1 ∧
      Gathered sampleConfiguration.concolicInputs ⟨[0], [1]⟩ interviews' v' ∧
      interviews'.filter (·.state ≠ 1) = interviews.filter (·.state ≠ 1) := by
  rcases hrun : (harvest .singleFork sampleConfiguration).runOn scriptMachine
    (scopingHost sampleState sampleState) with ⟨r, h'⟩
  obtain ⟨v, hv, hlength⟩ : ∃ v, ((harvest .singleFork sampleConfiguration).runOn scriptMachine
      (scopingHost sampleState sampleState)).1 = .ok v ∧ v.outcomes.length = 2 :=
    ⟨⟨[_, _], 0⟩, rfl, rfl⟩
  obtain ⟨v', hv', hskipped⟩ : ∃ v', ((harvest .singleFork sampleConfiguration).runOn scriptMachine
      (scopingHost sampleState ⟨[], [], []⟩)).1 = .ok v' ∧ v'.skipped = 1 :=
    ⟨⟨[_], 1⟩, rfl, rfl⟩
  obtain ⟨-, -, interviews, -, -, hgathered, -, hisolated⟩ :=
    harvest_scopes_failures (scopingHost_explores sampleState sampleState) hrun
  rw [hrun] at hv
  have hother : ∀ (q : Call Path Nat) s, q.subject? = some s → s ≠ 1 →
      (Script.answer q (scopingReady sampleState ⟨[], [], []⟩)).1
        = (Script.answer q (scopingReady sampleState sampleState)).1 := by
    intro q s hq hs
    have hstate : [sampleState, ⟨[], [], []⟩][s]? = [sampleState, sampleState][s]? := by
      rcases s with _ | _ | s
      · rfl
      · exact absurd rfl hs
      · rfl
    cases q with
    | load | entryState | explore => simp [Call.subject?] at hq
    | solve | lookupDescriptor | dumpDescriptor | dumpPath =>
      obtain rfl := Option.some.inj hq
      simp only [Script.answer, Script.ask, states_scopingReady, hstate]
  have hharmless : ∀ (q : Call Path Nat) e, q.subject? = some 1 →
      (Script.answer q (scopingReady sampleState ⟨[], [], []⟩)).1 = .error e →
        e.ConcernsState := by
    intro q e hq he
    cases q with
    | load | entryState | explore => simp [Call.subject?] at hq
    | lookupDescriptor =>
      obtain rfl := Option.some.inj hq
      cases he
    | solve =>
      obtain rfl := Option.some.inj hq
      exact .inl ⟨_, (Except.error.inj he).symm⟩
    | dumpDescriptor | dumpPath =>
      obtain rfl := Option.some.inj hq
      exact .inr ⟨_, (Except.error.inj he).symm⟩
  obtain ⟨v'', g', interviews', hrun', hgathered', hsame⟩ := hisolated scriptMachine _ _ _ _ 1
    (Script.answersBy _) (scopingHost_explores sampleState ⟨[], [], []⟩) (Script.answersBy _)
    hother hharmless v hv
  rw [hrun'] at hv'
  obtain rfl := Except.ok.inj hv'
  exact ⟨v, v'', interviews, interviews', hv, hlength, hgathered v hv, congrArg Prod.fst hrun',
    hskipped, hgathered', hsame⟩

end Concolic
