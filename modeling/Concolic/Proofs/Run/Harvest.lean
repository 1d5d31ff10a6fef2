/-
# What a harvest comes to

The states of an exploration are taken in order, and about each of them one interview is
conducted.  An interview to which all questions are answered gives an outcome; one that ends
with a failure that concerns only its state is counted; any other failure is the last thing
that is exchanged.  `Conducted` describes this apart from the work that does it, and which
failures concern a state is said apart from how the work tells them from others
(`EngineError.ConcernsState`).
-/
import Concolic.Run.Harvest
import Concolic.Proofs.Run.Interview

namespace Concolic

variable {P S σ : Type}

/-! ## Failures that concern a state -/

/-- The error concerns only the state that was asked about: there is no solution in it, or the
engine refuses the request. -/
def EngineError.ConcernsState (e : EngineError) : Prop :=
  (∃ name, e = .unsatisfiable name) ∨ ∃ reason, e = .rejected reason

lemma EngineError.isOutcomeScoped_iff {e : EngineError} :
    e.isOutcomeScoped = true ↔ e.ConcernsState := by
  cases e <;> simp [isOutcomeScoped, ConcernsState]

lemma EngineError.isOutcomeScoped_eq_false_iff {e : EngineError} :
    e.isOutcomeScoped = false ↔ ¬ e.ConcernsState := by
  rw [← isOutcomeScoped_iff, Bool.not_eq_true]

/-! ## Interviews in a row -/

/-- Taking states in order, these interviews about inputs are conducted, and they come to this
harvest, or to the failure of the engine that ends them. -/
inductive Conducted (inputs : List Input) :
    List S → List (Interview P S) → Except EngineError Harvest → Prop
  /-- There is no state left. -/
  | finished : Conducted inputs [] [] (.ok ⟨[], 0⟩)
  /-- All questions about the next state are answered. -/
  | answered {x : Interview P S} {answers : List Bytes} {states : List S}
      {xs : List (Interview P S)} {r : Except EngineError Harvest} :
      x.Covers inputs → x.result = .ok answers → Conducted inputs states xs r →
      Conducted inputs (x.state :: states) (x :: xs) (r.map fun v =>
        { v with outcomes := ⟨List.zipWith FoundValue.ofInput inputs answers⟩ :: v.outcomes })
  /-- A question about the next state has no answer in this state. -/
  | skipped {x : Interview P S} {i : Input} {e : EngineError} {states : List S}
      {xs : List (Interview P S)} {r : Except EngineError Harvest} :
      x.Covers inputs → x.result = .error (i, e) → e.ConcernsState →
      Conducted inputs states xs r →
      Conducted inputs (x.state :: states) (x :: xs)
        (r.map fun v => { v with skipped := v.skipped + 1 })
  /-- The engine fails. -/
  | failed {x : Interview P S} {i : Input} {e : EngineError} {states : List S} :
      x.Covers inputs → x.result = .error (i, e) → ¬ e.ConcernsState →
      Conducted inputs (x.state :: states) [x] (.error e)

namespace Conducted

variable {inputs : List Input} {states : List S} {xs : List (Interview P S)}
  {r : Except EngineError Harvest} {v : Harvest}

lemma covers (h : Conducted inputs states xs r) : ∀ x ∈ xs, x.Covers inputs := by
  induction h with
  | finished => simp
  | answered hx _ _ ih => exact List.forall_mem_cons.mpr ⟨hx, ih⟩
  | skipped hx _ _ _ ih => exact List.forall_mem_cons.mpr ⟨hx, ih⟩
  | failed hx => exact List.forall_mem_cons.mpr ⟨hx, by simp⟩

/-- No answer is missing in an interview to which all questions are answered. -/
lemma length_eq_of_complete (h : Conducted inputs states xs r) {answers : List Bytes}
    (ha : answers ∈ Interview.complete xs) : answers.length = inputs.length := by
  obtain ⟨x, hx, hanswers⟩ := List.mem_filterMap.mp ha
  exact (h.covers x hx).length_eq hanswers

/-- If the engine does not fail, every state has its interview. -/
lemma states_eq (h : Conducted inputs states xs (.ok v)) :
    xs.map Interview.state = states := by
  generalize hr : Except.ok v = r at h
  induction h generalizing v with
  | finished => rfl
  | @answered x answers states xs r _ _ _ ih =>
    rcases r with e | v'
    · exact absurd hr (by simp [Except.map])
    · rw [List.map_cons, ih rfl]
  | @skipped x i e states xs r _ _ _ _ ih =>
    rcases r with e | v'
    · exact absurd hr (by simp [Except.map])
    · rw [List.map_cons, ih rfl]
  | failed => exact absurd hr (by simp)

/-- If the engine does not fail, the outcomes are those of the interviews to which all questions
are answered, and the other interviews are counted. -/
lemma harvest_eq (h : Conducted inputs states xs (.ok v)) :
    v.outcomes = (Interview.complete xs).map
        (fun answers => ⟨List.zipWith FoundValue.ofInput inputs answers⟩) ∧
      v.outcomes.length + v.skipped = states.length := by
  generalize hr : Except.ok v = r at h
  induction h generalizing v with
  | finished =>
    obtain rfl := Except.ok.inj hr
    exact ⟨rfl, rfl⟩
  | @answered x answers states xs r _ hx _ ih =>
    rcases r with e | v'
    · exact absurd hr (by simp [Except.map])
    · obtain rfl := Except.ok.inj hr
      obtain ⟨hout, hcount⟩ := ih rfl
      refine ⟨?_, ?_⟩
      · rw [Interview.complete_cons_of_ok hx, List.map_cons, ← hout]
      · simp only [List.length_cons]
        omega
  | @skipped x i e states xs r _ hx _ _ ih =>
    rcases r with e | v'
    · exact absurd hr (by simp [Except.map])
    · obtain rfl := Except.ok.inj hr
      obtain ⟨hout, hcount⟩ := ih rfl
      refine ⟨?_, ?_⟩
      · rw [Interview.complete_cons_of_error hx]
        exact hout
      · simp only [List.length_cons]
        omega
  | failed => exact absurd hr (by simp)

end Conducted

/-! ## The work that conducts them -/

variable {m : Machine P S σ} {h h' : Host P S σ} {c : Configuration} {b : BoundInputs}

/-- Collecting the outcomes of states conducts interviews about them, whatever the engine. -/
lemma collectAll_runOn (hb : c.bound = .ok b) (states : List S) (h : Host P S σ) :
    ∃ xs r h', (collectAll c b states).runOn m h = (r.mapError RunError.engine, h') ∧
      Conducted c.concolicInputs states xs r ∧
      h'.exchanges = h.exchanges ++ xs.flatMap Interview.exchanges := by
  induction states generalizing h with
  | nil => exact ⟨[], .ok ⟨[], 0⟩, h, rfl, .finished, by simp⟩
  | cons state states ih =>
    obtain ⟨x, h₁, rfl, hx, hrun, hex⟩ := collect_runOn m h hb state
    rw [collectAll, Work.runOn_bind, hrun]
    rcases hr : x.result with ⟨i, e⟩ | answers
    · have hout : x.outcome c.concolicInputs = .error (.ofQuery i.name e) := by
        rw [Interview.outcome, hr]
      rcases hscope : e.isOutcomeScoped with _ | _
      · -- the failure ends the harvest
        refine ⟨[x], .error e, h₁, ?_,
          .failed hx hr (EngineError.isOutcomeScoped_eq_false_iff.mp hscope), by simpa using hex⟩
        simp only [hout, CollectError.ofQuery, hscope]
        rfl
      · -- the state is skipped, which is told, and the next one is taken
        obtain ⟨xs, r, h₂, hrest, hxs, hex₂⟩ := ih { h₁ with events := h₁.events
          ++ [harvestEvent .warn
            s!"Skipping outcome: {(CollectError.unresolved i.name e).message}"] }
        refine ⟨x :: xs, _, h₂, ?_,
          .skipped hx hr (EngineError.isOutcomeScoped_iff.mp hscope) hxs, ?_⟩
        · simp only [hout, CollectError.ofQuery, hscope, if_true, Work.runOn_bind,
            Work.runOn_tell, hrest]
          rcases r with e' | v <;> rfl
        · rw [hex₂, hex, List.flatMap_cons, List.append_assoc]
    · have hout : x.outcome c.concolicInputs
          = .ok ⟨List.zipWith FoundValue.ofInput c.concolicInputs answers⟩ := by
        rw [Interview.outcome, hr]
      obtain ⟨xs, r, h₂, hrest, hxs, hex₂⟩ := ih h₁
      refine ⟨x :: xs, _, h₂, ?_, .answered hx hr hxs, ?_⟩
      · simp only [hout, Work.runOn_bind, hrest]
        rcases r with e' | v <;> rfl
      · rw [hex₂, hex, List.flatMap_cons, List.append_assoc]

/-- A harvest that succeeds has loaded the program, made its entry state and explored from it,
and then conducted interviews about all states that were found. -/
lemma harvest_runOn_eq_ok {policy : Policy} {v : Harvest}
    (hw : (harvest policy c).runOn m h = (.ok v, h')) :
    ∃ (b : BoundInputs) (project : P) (entry : S) (found : Exploration S)
      (xs : List (Interview P S)), c.bound = .ok b ∧
        Conducted c.concolicInputs found.states xs (.ok v) ∧
        h'.exchanges = h.exchanges ++ ([⟨.load c.executable, .ok project⟩,
          ⟨.entryState project b.arguments b.fileTable, .ok entry⟩,
          ⟨.explore entry policy, .ok found⟩] ++ xs.flatMap Interview.exchanges) := by
  obtain ⟨b, h₁, hbind, hw₁⟩ := Work.runOn_bind_eq_ok_iff.mp hw
  obtain ⟨project, h₂, hload, hw₂⟩ := Work.runOn_bind_eq_ok_iff.mp hw₁
  obtain ⟨entry, h₃, hentry, hw₃⟩ := Work.runOn_bind_eq_ok_iff.mp hw₂
  obtain ⟨_, h₄, htell, hw₄⟩ := Work.runOn_bind_eq_ok_iff.mp hw₃
  obtain ⟨found, h₅, hexplore, hw₅⟩ := Work.runOn_bind_eq_ok_iff.mp hw₄
  obtain ⟨_, h₆, htell', hw₆⟩ := Work.runOn_bind_eq_ok_iff.mp hw₅
  have hb : c.bound = .ok b := by
    rw [Work.traced, Work.runOn_bind_eq_ok_iff] at hbind
    obtain ⟨_, _, -, hfail⟩ := hbind
    rw [← Configuration.bind_result]
    exact (Work.runOn_orFail_eq_ok_iff.mp hfail).1
  obtain ⟨xs, r, h₇, hrun, hxs, hex⟩ := collectAll_runOn (m := m) hb found.states h₆
  rw [hw₆] at hrun
  obtain ⟨hr, rfl⟩ := Prod.mk.inj hrun
  rcases r with e | v'
  · exact absurd hr (by simp [Except.mapError])
  obtain rfl : v = v' := Except.ok.inj hr
  -- events do not count as exchanges, so the three demands are all that precedes the interviews
  have hex₁ := (Work.keeps_exchanges_traced .binding c.bind).of_runOn hbind
  have hex₂ := Work.demand_runOn_eq_ok hload
  have hex₃ := Work.demand_runOn_eq_ok hentry
  have hex₄ := (Work.keeps_exchanges_tell _).of_runOn htell
  have hex₅ := Work.demand_runOn_eq_ok hexplore
  have hex₆ := (Work.keeps_exchanges_tell _).of_runOn htell'
  refine ⟨b, project, entry, found, xs, hb, hxs, ?_⟩
  rw [hex, hex₆, hex₅, hex₄, hex₃, hex₂, hex₁]
  simp only [List.append_assoc, List.cons_append, List.nil_append]
  rfl

end Concolic
