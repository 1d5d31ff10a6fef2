/-
# Answers about one state

An engine may answer every query by the query alone, whatever it has been asked before; such an
engine is described by `Engine.AnswersBy`.  Two interviews about a state in which the same
answers are given are the same interview.  So what such an engine answers about one state has
no influence on the interviews about the others: two harvests of the same states, which differ
in the answers about one state only, are followed state by state.
-/
import Concolic.Proofs.Run.Failure

namespace Concolic

variable {P S σ α : Type}

/-! ## Engines that answer by the query alone -/

/-- An answer for every call. -/
abbrev Answers (P S : Type) := (c : Call P S) → Except EngineError c.Answer

namespace Engine

/-- The inner state of an engine after calls. -/
def after (e : Engine P S σ) (s : σ) (calls : List (Call P S)) : σ :=
  calls.foldl (fun s c => (e.answer c s).2) s

/-- From an inner state on, the answer to a query about a state depends on the query alone,
whatever has been asked about states before. -/
def AnswersBy (e : Engine P S σ) (s : σ) (answers : Answers P S) : Prop :=
  ∀ (asked : List (Call P S)) (c : Call P S), (∀ a ∈ asked, a.subject? ≠ none) →
    c.subject? ≠ none → (e.answer c (e.after s asked)).1 = answers c

variable {e : Engine P S σ} {s : σ} {answers : Answers P S} {c : Call P S}

lemma AnswersBy.answer_eq (h : e.AnswersBy s answers) (hc : c.subject? ≠ none) :
    (e.answer c s).1 = answers c := h [] c (by simp) hc

/-- A query does not change how queries are answered. -/
lemma AnswersBy.step (h : e.AnswersBy s answers) (hc : c.subject? ≠ none) :
    e.AnswersBy (e.answer c s).2 answers := by
  intro asked c' hasked hc'
  exact h (c :: asked) c' (by simpa using ⟨hc, hasked⟩) hc'

end Engine

/-- The calls were answered like this. -/
def AnsweredBy (answers : Answers P S) (x : List (Exchange P S)) : Prop :=
  ∀ q ∈ x, q.answer = answers q.call

lemma answeredBy_append {answers : Answers P S} {x y : List (Exchange P S)} :
    AnsweredBy answers (x ++ y) ↔ AnsweredBy answers x ∧ AnsweredBy answers y := by
  simp only [AnsweredBy, List.mem_append, or_imp, forall_and]

variable {m : Machine P S σ} {h h' : Host P S σ} {answers : Answers P S} {s : σ}

/-- If only queries are put to an engine that answers them by the query alone, it goes on to do
so, and all the answers are of that kind. -/
lemma Action.answeredBy_of_uses {x : Action P S α} (hx : x.Uses Operation.IsQuery)
    (hs : h.session = some s) (ha : m.engine.AnswersBy s answers) :
    ∃ s' y, (x.run m h).2.session = some s' ∧ m.engine.AnswersBy s' answers ∧
      (x.run m h).2.exchanges = h.exchanges ++ y ∧ AnsweredBy answers y := by
  induction x generalizing h s with
  | done a => exact ⟨s, [], hs, ha, by simp [run], by simp [AnsweredBy]⟩
  | step op next ih =>
    obtain ⟨hop, hnext⟩ := hx
    cases op with
    | ask c =>
      rw [run]
      simp only [Host.perform, hs]
      obtain ⟨s', y, hs', ha', hex, hy⟩ := ih _ (hnext _)
        (h := { h with
          session := some (m.engine.answer c s).2
          exchanges := h.exchanges ++ [⟨c, (m.engine.answer c s).1⟩] }) rfl (ha.step hop)
      refine ⟨s', ⟨c, (m.engine.answer c s).1⟩ :: y, hs', ha', ?_, ?_⟩
      · rw [hex, List.append_assoc]
        rfl
      · intro q hq
        rcases List.mem_cons.mp hq with rfl | hq
        · exact ha.answer_eq hop
        · exact hy q hq
    | tell event => exact ih () (hnext ()) (h := { h with events := h.events ++ [event] }) hs ha
    | file | launch | close | print | stamp => exact hop.elim

/-! ## The same answers make the same interview -/

section Unique

variable {answers' : Answers P S} {state : S} {x x' : List (Exchange P S)}

lemma Asked.eq_of_answeredBy {question : Question} {a a' : Except EngineError Bytes}
    (hask : Asked state question x a) (hask' : Asked state question x' a')
    (hx : AnsweredBy answers x) (hx' : AnsweredBy answers' x')
    (agree : ∀ c : Call P S, c.subject? = some state → answers' c = answers c) :
    x' = x ∧ a' = a := by
  cases question with
  | bytes unknown =>
    cases hask
    cases hask'
    have ha : a = answers (.solve state unknown) := hx _ List.mem_cons_self
    have ha' : a' = answers' (.solve state unknown) := hx' _ List.mem_cons_self
    obtain rfl : a' = a := by rw [ha, ha', agree _ rfl]
    exact ⟨rfl, rfl⟩
  | content file =>
    -- the descriptor is looked up first, with the same answer in both interviews
    have hlook : ∀ {y y' : List (Exchange P S)} {found found' : Except EngineError (Option Nat)},
        AnsweredBy answers (⟨.lookupDescriptor state file.path, found⟩ :: y) →
        AnsweredBy answers' (⟨.lookupDescriptor state file.path, found'⟩ :: y') →
          found' = found := fun hy hy' =>
      (hy' _ List.mem_cons_self).trans ((agree _ rfl).trans (hy _ List.mem_cons_self).symm)
    cases hask with
    | notLookedUp _ fault =>
      cases hask' with
      | notLookedUp =>
        rw [Except.error.inj (hlook hx hx')]
        exact ⟨rfl, rfl⟩
      | byDescriptor | byPath => exact nomatch hlook hx hx'
    | byDescriptor _ descriptor =>
      cases hask' with
      | byDescriptor _ descriptor' =>
        obtain rfl : descriptor' = descriptor :=
          Option.some.inj (Except.ok.inj (hlook hx hx'))
        have ha : a = answers (.dumpDescriptor state descriptor') :=
          hx ⟨.dumpDescriptor state descriptor', a⟩ (List.mem_cons_of_mem _ List.mem_cons_self)
        have ha' : a' = answers' (.dumpDescriptor state descriptor') :=
          hx' ⟨.dumpDescriptor state descriptor', a'⟩ (List.mem_cons_of_mem _ List.mem_cons_self)
        obtain rfl : a' = a := by rw [ha, ha', agree _ rfl]
        exact ⟨rfl, rfl⟩
      | notLookedUp | byPath => exact nomatch hlook hx hx'
    | byPath =>
      cases hask' with
      | byPath =>
        have ha : a = answers (.dumpPath state file.path) :=
          hx ⟨.dumpPath state file.path, a⟩ (List.mem_cons_of_mem _ List.mem_cons_self)
        have ha' : a' = answers' (.dumpPath state file.path) :=
          hx' ⟨.dumpPath state file.path, a'⟩ (List.mem_cons_of_mem _ List.mem_cons_self)
        obtain rfl : a' = a := by rw [ha, ha', agree _ rfl]
        exact ⟨rfl, rfl⟩
      | notLookedUp | byDescriptor => exact nomatch hlook hx hx'

lemma Interviewed.eq_of_answeredBy {inputs : List Input}
    {r r' : Except (Input × EngineError) (List Bytes)}
    (hint : Interviewed state inputs x r) (hint' : Interviewed state inputs x' r')
    (hx : AnsweredBy answers x) (hx' : AnsweredBy answers' x')
    (agree : ∀ c : Call P S, c.subject? = some state → answers' c = answers c) :
    x' = x ∧ r' = r := by
  induction hint generalizing x' r' with
  | finished =>
    cases hint'
    exact ⟨rfl, rfl⟩
  | refused hask =>
    cases hint' with
    | refused hask' =>
      obtain ⟨rfl, he⟩ := hask.eq_of_answeredBy hask' hx hx' agree
      rw [Except.error.inj he]
      exact ⟨rfl, rfl⟩
    | answered hask' _ =>
      obtain ⟨-, he⟩ := hask.eq_of_answeredBy hask' hx (answeredBy_append.mp hx').1 agree
      exact absurd he (by simp)
  | answered hask _ ih =>
    obtain ⟨hx₁, hx₂⟩ := answeredBy_append.mp hx
    cases hint' with
    | refused hask' =>
      obtain ⟨-, he⟩ := hask.eq_of_answeredBy hask' hx₁ hx' agree
      exact absurd he (by simp)
    | answered hask' hrest' =>
      obtain ⟨hx₁', hx₂'⟩ := answeredBy_append.mp hx'
      obtain ⟨rfl, hv⟩ := hask.eq_of_answeredBy hask' hx₁ hx₁' agree
      obtain ⟨rfl, rfl⟩ := ih hrest' hx₂ hx₂'
      rw [Except.ok.inj hv]
      exact ⟨rfl, rfl⟩

end Unique

/-! ## Two harvests of the same states -/

section Isolation

variable {inputs : List Input} {states : List S} {xs xs' : List (Interview P S)}
  {v : Harvest} {r r' : Except EngineError Harvest}

/-- The interview about the first state either ends the harvest with a failure that does not
concern the state alone, or the harvest goes on with the other states and ends as it does for
them. -/
lemma Conducted.cons_cases {state : S} (hc : Conducted inputs (state :: states) xs r) :
    ∃ x rest, xs = x :: rest ∧ x.state = state ∧ x.Covers inputs ∧
      ((∃ i e, x.result = .error (i, e) ∧ ¬ e.ConcernsState ∧ r = .error e) ∨
        ((∀ i e, x.result = .error (i, e) → e.ConcernsState) ∧
          ∃ r₁ f, Conducted inputs states rest r₁ ∧ r = r₁.map f)) := by
  cases hc with
  | answered hx hres hrest =>
    exact ⟨_, _, rfl, rfl, hx, .inr ⟨by simp [hres], _, _, hrest, rfl⟩⟩
  | skipped hx hres hscope hrest =>
    refine ⟨_, _, rfl, rfl, hx, .inr ⟨?_, _, _, hrest, rfl⟩⟩
    intro i e he
    obtain ⟨-, rfl⟩ := Prod.mk.inj (Except.error.inj (hres.symm.trans he))
    exact hscope
  | failed hx hres hscope =>
    exact ⟨_, _, rfl, rfl, hx, .inl ⟨_, _, hres, hscope, rfl⟩⟩

/-- If a harvest succeeds, so does one in which other answers are given about a single state,
as long as no failure among them concerns more than that state; and the interviews about the
other states are the same. -/
lemma Conducted.isolated [DecidableEq S] {answers' : Answers P S} {other : S}
    (hc : Conducted inputs states xs (.ok v)) (hc' : Conducted inputs states xs' r')
    (hxs : AnsweredBy answers (xs.flatMap Interview.exchanges))
    (hxs' : AnsweredBy answers' (xs'.flatMap Interview.exchanges))
    (agree : ∀ (c : Call P S) s, c.subject? = some s → s ≠ other → answers' c = answers c)
    (harmless : ∀ (c : Call P S) e, c.subject? = some other → answers' c = .error e →
      e.ConcernsState) :
    (∃ v', r' = .ok v') ∧
      xs'.filter (·.state ≠ other) = xs.filter (·.state ≠ other) := by
  induction states generalizing xs xs' v r' with
  | nil =>
    cases hc
    cases hc'
    exact ⟨⟨_, rfl⟩, rfl⟩
  | cons state states ih =>
    obtain ⟨x, rest, rfl, hstate, hcov, hend⟩ := hc.cons_cases
    obtain ⟨x', rest', rfl, hstate', hcov', hend'⟩ := hc'.cons_cases
    rw [List.flatMap_cons, answeredBy_append] at hxs hxs'
    obtain ⟨-, r₁, f, hrest, hok⟩ | ⟨hscope, r₁, f, hrest, hok⟩ := hend
    · exact absurd ‹_› (by simp)
    obtain ⟨v₁, rfl⟩ : ∃ v₁, r₁ = .ok v₁ := by
      cases r₁ with
      | ok v₁ => exact ⟨v₁, rfl⟩
      | error e => exact absurd hok (by simp [Except.map])
    -- about any other state the interview is the same as before
    have hsame : state ≠ other → x' = x := by
      intro hne
      have hne' : ∀ c : Call P S, c.subject? = some x.state → answers' c = answers c :=
        fun c hsub => agree c x.state hsub (hstate ▸ hne)
      have hcov'' : Interviewed x.state inputs x'.exchanges x'.result := by
        rw [hstate, ← hstate']
        exact hcov'
      obtain ⟨hex, hres⟩ := Interviewed.eq_of_answeredBy hcov hcov'' hxs.1 hxs'.1 hne'
      obtain ⟨_, _, _⟩ := x
      obtain ⟨_, _, _⟩ := x'
      simp_all
    -- so in neither case the second harvest ends here
    have hgoes : ∀ i e, x'.result = .error (i, e) → e.ConcernsState := by
      intro i e hres
      by_cases heq : state = other
      · have hmem : e ∈ failures x'.exchanges := by
          rw [Interviewed.failures_eq hcov', hres]
          simp [faults]
        obtain ⟨q, hq, hfail⟩ := mem_failures.mp hmem
        refine harmless q.call e ?_ ((hxs'.1 q hq).symm.trans hfail)
        rw [Interviewed.subject hcov' q hq, hstate', heq]
      · exact hscope i e (hsame heq ▸ hres)
    obtain ⟨i, e, hres, hfatal, -⟩ | ⟨-, r₁', f', hrest', rfl⟩ := hend'
    · exact absurd (hgoes i e hres) hfatal
    obtain ⟨⟨v₁', rfl⟩, hfilter⟩ := ih hrest hrest' hxs.2 hxs'.2
    refine ⟨⟨f' v₁', rfl⟩, ?_⟩
    rw [List.filter_cons, List.filter_cons, hfilter]
    by_cases heq : state = other
    · rw [hstate, hstate', heq]
      simp
    · rw [hsame heq]

end Isolation

end Concolic
