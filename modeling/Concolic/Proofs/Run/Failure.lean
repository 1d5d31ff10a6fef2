/-
# Failures among what is exchanged

A call fails if it is answered with an error.  The questions about a state are given up at the
first call that fails, and the harvest is given up at the first failure that does not concern
the state alone.  So how an interview and how a harvest end can be read off the failures among
their exchanges:

* the failures of an interview are none, or only the one that it ends with, in its last
  exchange;
* the failures of a harvest all concern single states, unless the last of them ends it.
-/
import Concolic.Proofs.Run.Harvest
import Concolic.Proofs.Run.Operations

namespace Concolic

variable {P S σ α ε : Type}

/-! ## Calls that fail -/

/-- The error of a result, if it is one. -/
def faults : Except ε α → List ε
  | .ok _ => []
  | .error e => [e]

/-- The errors that the calls were answered with, in their order. -/
def failures (x : List (Exchange P S)) : List EngineError := x.flatMap fun q => faults q.answer

/-- The call was answered with an error. -/
def Exchange.Fails (q : Exchange P S) : Prop := ∃ e, q.answer = .error e

/-- The call was answered with an error after which nothing can be asked: an error on the way
to the states, or one that does not concern a state alone. -/
def Exchange.IsFatal (q : Exchange P S) : Prop :=
  ∃ e, q.answer = .error e ∧ (q.call.subject? = none ∨ ¬ e.ConcernsState)

@[simp] lemma failures_nil : failures ([] : List (Exchange P S)) = [] := rfl

lemma failures_append (x y : List (Exchange P S)) : failures (x ++ y) = failures x ++ failures y :=
  List.flatMap_append

lemma faults_map {β : Type} (f : α → β) (r : Except ε α) : faults (r.map f) = faults r := by
  cases r <;> rfl

lemma mem_failures {x : List (Exchange P S)} {e : EngineError} :
    e ∈ failures x ↔ ∃ q ∈ x, q.answer = .error e := by
  rw [failures, List.mem_flatMap]
  refine exists_congr fun q => and_congr_right fun _ => ?_
  rcases q.answer with e' | a
  · simp [faults, eq_comm]
  · simp [faults]

/-! ## Exchanges that come last -/

/-- After an exchange of this kind there is no further one. -/
def EndsAt (p : Exchange P S → Prop) (x : List (Exchange P S)) : Prop :=
  ∀ before q after, x = before ++ q :: after → p q → after = []

variable {p : Exchange P S → Prop} {x y : List (Exchange P S)} {q : Exchange P S}

lemma endsAt_nil : EndsAt p [] := by
  intro before q after h
  simp at h

lemma EndsAt.append (hx : ∀ q ∈ x, ¬ p q) (hy : EndsAt p y) : EndsAt p (x ++ y) := by
  intro before q after h hq
  rcases List.append_eq_append_iff.mp h with ⟨rest, rfl, hrest⟩ | ⟨rest, rfl, hrest⟩
  · exact hy rest q after hrest hq
  · -- the exchange would stand in the first part, unless that part ends before it
    cases rest with
    | nil => exact hy [] q after (by simpa using hrest.symm) hq
    | cons q' rest =>
      obtain ⟨rfl, -⟩ := List.cons.inj hrest
      exact absurd hq (hx q (by simp))

lemma endsAt_singleton : EndsAt p [q] := by
  intro before q' after h _
  cases before with
  | nil => exact (List.cons.inj h).2.symm
  | cons q'' before => simp at h

lemma EndsAt.cons (hq : ¬ p q) (hx : EndsAt p x) : EndsAt p (q :: x) :=
  EndsAt.append (x := [q]) (by simpa using hq) hx

lemma forall_not_fails_iff : (∀ q ∈ x, ¬ q.Fails) ↔ failures x = [] := by
  rw [List.eq_nil_iff_forall_not_mem]
  constructor
  · intro h e he
    obtain ⟨q, hq, hfail⟩ := mem_failures.mp he
    exact h q hq ⟨e, hfail⟩
  · rintro h q hq ⟨e, hfail⟩
    exact h e (mem_failures.mpr ⟨q, hq, hfail⟩)

/-! ## One question -/

variable {state : S} {question : Question} {answer : Except EngineError Bytes}

/-- All exchanges about a question are about its state. -/
lemma Asked.subject (h : Asked state question x answer) :
    ∀ q ∈ x, q.call.subject? = some state := by
  cases h <;> simp [Call.subject?]

lemma Asked.failures_eq (h : Asked state question x answer) : failures x = faults answer := by
  cases h with
  | solved | byDescriptor | byPath => exact List.append_nil _
  | notLookedUp => rfl

lemma Asked.endsAt_fails (h : Asked state question x answer) : EndsAt Exchange.Fails x := by
  cases h with
  | solved unknown answer => exact endsAt_singleton
  | notLookedUp file fault => exact endsAt_singleton
  | byDescriptor file descriptor answer =>
    exact EndsAt.cons (by simp [Exchange.Fails]) endsAt_singleton
  | byPath file answer => exact EndsAt.cons (by simp [Exchange.Fails]) endsAt_singleton

/-! ## One interview -/

variable {inputs : List Input} {r : Except (Input × EngineError) (List Bytes)}

/-- All exchanges of an interview are about its state. -/
lemma Interviewed.subject (h : Interviewed state inputs x r) :
    ∀ q ∈ x, q.call.subject? = some state := by
  induction h with
  | finished => simp
  | refused hask => exact hask.subject
  | answered hask _ ih =>
    intro q hq
    rcases List.mem_append.mp hq with hq | hq
    · exact hask.subject q hq
    · exact ih q hq

/-- The failures of an interview are none, or the one that it ends with. -/
lemma Interviewed.failures_eq (h : Interviewed state inputs x r) :
    failures x = (faults r).map Prod.snd := by
  induction h with
  | finished => rfl
  | refused hask => rw [hask.failures_eq]; rfl
  | answered hask _ ih => rw [failures_append, hask.failures_eq, ih, faults_map]; rfl

/-- An interview is given up at the first call that fails. -/
lemma Interviewed.endsAt_fails (h : Interviewed state inputs x r) : EndsAt Exchange.Fails x := by
  induction h with
  | finished => exact endsAt_nil
  | refused hask => exact hask.endsAt_fails
  | answered hask _ ih => exact EndsAt.append (forall_not_fails_iff.mpr hask.failures_eq) ih

namespace Interview

variable {z : Interview P S}

/-- There is no outcome exactly if one of the calls about the state fails. -/
lemma Covers.toOption_outcome_eq_none_iff (h : z.Covers inputs) :
    (z.outcome inputs).toOption = none ↔ ∃ q ∈ z.exchanges, q.Fails := by
  have hsome : (∃ q ∈ z.exchanges, q.Fails) ↔ failures z.exchanges ≠ [] := by
    rw [Ne, ← forall_not_fails_iff]
    simp
  rw [hsome, Interviewed.failures_eq h, outcome]
  rcases z.result with ⟨i, e⟩ | answers <;> simp [faults, Except.toOption]

lemma Covers.failures_cons (h : z.Covers inputs) (xs : List (Interview P S)) :
    failures ((z :: xs).flatMap exchanges)
      = (faults z.result).map Prod.snd ++ failures (xs.flatMap exchanges) := by
  rw [List.flatMap_cons, failures_append, Interviewed.failures_eq h]

end Interview

/-! ## The interviews of a harvest -/

variable {states : List S} {xs : List (Interview P S)} {v : Harvest}

/-- If the engine does not fail, every failure concerns only the state it was asked about. -/
lemma Conducted.scoped_of_ok (h : Conducted inputs states xs (.ok v)) :
    ∀ e ∈ failures (xs.flatMap Interview.exchanges), e.ConcernsState := by
  generalize hr : Except.ok v = r at h
  induction h generalizing v with
  | finished => simp
  | @answered z answers states xs r hz hres _ ih =>
    rcases r with e | v'
    · exact absurd hr (by simp [Except.map])
    · rw [hz.failures_cons, hres]
      simpa [faults] using ih rfl
  | @skipped z i e states xs r hz hres hscope _ ih =>
    rcases r with e | v'
    · exact absurd hr (by simp [Except.map])
    · rw [hz.failures_cons, hres]
      simpa [faults, hscope] using ih rfl
  | failed => exact absurd hr (by simp)

/-- If the engine fails, this is the last failure, and all failures before it concern only the
states they were asked about. -/
lemma Conducted.failures_of_error {e : EngineError} (h : Conducted inputs states xs (.error e)) :
    ¬ e.ConcernsState ∧
      ∃ before, failures (xs.flatMap Interview.exchanges) = before ++ [e] ∧
        ∀ e' ∈ before, e'.ConcernsState := by
  generalize hr : Except.error e = r at h
  induction h with
  | finished => exact absurd hr (by simp)
  | @answered z answers states xs r hz hres _ ih =>
    rcases r with e' | v
    · obtain rfl := Except.error.inj hr
      obtain ⟨hfatal, before, hbefore, hscoped⟩ := ih rfl
      refine ⟨hfatal, before, ?_, hscoped⟩
      rw [hz.failures_cons, hres, hbefore]
      rfl
    · exact absurd hr (by simp [Except.map])
  | @skipped z i e' states xs r hz hres hscope _ ih =>
    rcases r with e'' | v
    · obtain rfl := Except.error.inj hr
      obtain ⟨hfatal, before, hbefore, hscoped⟩ := ih rfl
      refine ⟨hfatal, e' :: before, ?_, by simpa using ⟨hscope, hscoped⟩⟩
      rw [hz.failures_cons, hres, hbefore]
      rfl
    · exact absurd hr (by simp [Except.map])
  | @failed z i e' states hz hres hscope =>
    obtain rfl := Except.error.inj hr
    refine ⟨hscope, [], ?_, by simp⟩
    rw [hz.failures_cons, hres]
    rfl

/-- A failure that does not concern a state alone is the first one of its kind and the last
failure at all, and it is what the harvest comes to. -/
lemma Conducted.eq_error_of_not_scoped {r : Except EngineError Harvest}
    {before after : List EngineError} {e : EngineError} (h : Conducted inputs states xs r)
    (hsplit : failures (xs.flatMap Interview.exchanges) = before ++ e :: after)
    (hfatal : ¬ e.ConcernsState) :
    r = .error e ∧ (∀ e' ∈ before, e'.ConcernsState) ∧ after = [] := by
  rcases r with e' | v
  · obtain ⟨-, before', heq, hscope⟩ := h.failures_of_error
    rw [hsplit] at heq
    rcases List.eq_nil_or_concat after with rfl | ⟨after', e'', rfl⟩
    · obtain ⟨rfl, he⟩ := List.append_inj' heq rfl
      rw [(List.cons.inj he).1]
      exact ⟨rfl, hscope, rfl⟩
    · -- all failures but the last one concern single states
      have heq' : (before ++ e :: after') ++ [e''] = before' ++ [e'] := by simpa using heq
      obtain ⟨rfl, -⟩ := List.append_inj' heq' rfl
      exact absurd (hscope e (by simp)) hfatal
  · exact absurd (h.scoped_of_ok e (by simp [hsplit])) hfatal

/-- The interviews end at the first failure that does not concern a state alone. -/
lemma Conducted.endsAt_isFatal {r : Except EngineError Harvest}
    (h : Conducted inputs states xs r) :
    EndsAt Exchange.IsFatal (xs.flatMap Interview.exchanges) := by
  -- of the calls about a state, only a failure that is its last can be fatal
  have hfatal : ∀ {z : Interview P S}, z.Covers inputs → ∀ q ∈ z.exchanges, q.IsFatal →
      ∃ e ∈ (faults z.result).map Prod.snd, ¬ e.ConcernsState := by
    rintro z hz q hq ⟨e, hfail, hnone | hscope⟩
    · rw [Interviewed.subject hz q hq] at hnone
      exact absurd hnone (by simp)
    · exact ⟨e, Interviewed.failures_eq hz ▸ mem_failures.mpr ⟨q, hq, hfail⟩, hscope⟩
  induction h with
  | finished => exact endsAt_nil
  | answered hz hres _ ih =>
    refine EndsAt.append (fun q hq hf => ?_) ih
    obtain ⟨e, he, -⟩ := hfatal hz q hq hf
    rw [hres] at he
    exact absurd he (by simp [faults])
  | skipped hz hres hscope _ ih =>
    refine EndsAt.append (fun q hq hf => ?_) ih
    obtain ⟨e, he, hscope'⟩ := hfatal hz q hq hf
    rw [hres] at he
    obtain rfl := by simpa [faults] using he
    exact absurd hscope hscope'
  | @failed z i e states hz =>
    have hends : EndsAt Exchange.Fails z.exchanges := Interviewed.endsAt_fails hz
    intro before q after hsplit hf
    obtain ⟨e, hfail, -⟩ := hf
    exact hends before q after (by simpa using hsplit) ⟨e, hfail⟩

end Concolic
