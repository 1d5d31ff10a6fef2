/-
# Interviews

What is exchanged with the engine about one state is an interview: input by input a question
is asked, and the interview ends with the answers to all of them or with the first question
that is not answered.  This file describes interviews by what is exchanged, apart from the
work that conducts them:

* `Asked`: the exchanges about a single question, and the answer that they end with;
* `Interviewed`: the exchanges about a list of inputs, one block of exchanges for each.

Collecting the outcome of a state conducts the interview about all inputs to be found, whatever
the engine.  In particular the two lists that are run through in parallel, declarations and
bindings, have the same length and the same order.
-/
import Concolic.Run.Outcome
import Concolic.Proofs.Binding
import Concolic.Proofs.Run.Carrying

namespace Concolic

/-! ## The inputs and their questions -/

/-- The inputs to be found: the symbolic arguments, the files, and the standard input. -/
def Configuration.concolicInputs (c : Configuration) : List Input :=
  c.symbolicArguments.map .argument ++ c.files.map .file
    ++ c.standardInput.toList.map .standardInput

/-- What is asked about an input. -/
def Input.question : Input → Question
  | .argument a => .bytes ⟨a.name, a.size⟩
  | .file f => .content ⟨f.path, ⟨f.path, f.size⟩⟩
  | .standardInput size => .content ⟨standardInputPath, ⟨standardInputName, size⟩⟩

@[simp] lemma Configuration.length_concolicInputs (c : Configuration) :
    c.concolicInputs.length = c.concolicCount := by
  simp [concolicInputs, concolicCount, Nat.add_assoc]

/-- The questions that are asked are those of the inputs to be found: neither list of a pair is
longer than the other. -/
lemma questions_of_bound {c : Configuration} {b : BoundInputs} (h : c.bound = .ok b) :
    questions c b = c.concolicInputs.map fun i => (i, i.question) := by
  have hzip : ∀ {α β : Type} (f : α → β) (l : List α),
      l.zip (l.map f) = l.map fun a => (a, f a) := by
    intro α β f l
    induction l with
    | nil => rfl
    | cons a l ih => rw [List.map_cons, List.zip_cons_cons, ih, List.map_cons]
  obtain ⟨-, hfiles, hstd⟩ := Configuration.eq_of_bound_eq_ok h
  have hstd' : b.standardInput.toList = c.standardInput.toList.map SimulatedFile.standardInput := by
    rw [hstd]
    cases c.standardInput <;> rfl
  rw [questions, Configuration.unknownArguments_of_bound h, hfiles, hstd', hzip, hzip, hzip,
    Configuration.concolicInputs]
  simp only [List.map_append, List.map_map]
  rfl

variable {P S σ : Type}

/-! ## What is exchanged -/

/-- Asking a question about a state takes these exchanges and ends with this answer.  The bytes
of an argument are solved for; a content is dumped by its descriptor if there is one, and by
its path otherwise. -/
inductive Asked (state : S) : Question → List (Exchange P S) → Except EngineError Bytes → Prop
  /-- The bytes of an argument are solved for. -/
  | solved (unknown : Unknown) (answer : Except EngineError Bytes) :
    Asked state (.bytes unknown) [⟨.solve state unknown, answer⟩] answer
  /-- The descriptor cannot be looked up. -/
  | notLookedUp (file : SimulatedFile) (fault : EngineError) :
    Asked state (.content file) [⟨.lookupDescriptor state file.path, .error fault⟩] (.error fault)
  /-- The content is dumped by the descriptor that has been looked up. -/
  | byDescriptor (file : SimulatedFile) (descriptor : Nat) (answer : Except EngineError Bytes) :
    Asked state (.content file)
      [⟨.lookupDescriptor state file.path, .ok (some descriptor)⟩,
        ⟨.dumpDescriptor state descriptor, answer⟩] answer
  /-- There is no descriptor, so the content is dumped by the path. -/
  | byPath (file : SimulatedFile) (answer : Except EngineError Bytes) :
    Asked state (.content file)
      [⟨.lookupDescriptor state file.path, .ok none⟩, ⟨.dumpPath state file.path, answer⟩] answer

/-- Asking about inputs in order takes these exchanges and ends with the answers to all of
them, or with the first input whose question is not answered and the reason for it. -/
inductive Interviewed (state : S) :
    List Input → List (Exchange P S) → Except (Input × EngineError) (List Bytes) → Prop
  /-- There is nothing left to ask about. -/
  | finished : Interviewed state [] [] (.ok [])
  /-- The question about the next input is not answered. -/
  | refused {i : Input} {inputs : List Input} {x : List (Exchange P S)} {e : EngineError} :
    Asked state i.question x (.error e) → Interviewed state (i :: inputs) x (.error (i, e))
  /-- The question about the next input is answered. -/
  | answered {i : Input} {inputs : List Input} {x y : List (Exchange P S)} {v : Bytes}
      {r : Except (Input × EngineError) (List Bytes)} :
    Asked state i.question x (.ok v) → Interviewed state inputs y r →
      Interviewed state (i :: inputs) (x ++ y) (r.map (v :: ·))

/-- An interview: the state, what was exchanged about it, and how it ended. -/
structure Interview (P S : Type) where
  /-- The state. -/
  state : S
  /-- What was exchanged. -/
  exchanges : List (Exchange P S)
  /-- The answers, or the input whose question was not answered. -/
  result : Except (Input × EngineError) (List Bytes)

namespace Interview

/-- The interview is about the given inputs. -/
def Covers (x : Interview P S) (inputs : List Input) : Prop :=
  Interviewed x.state inputs x.exchanges x.result

/-- The answers, if every question was answered. -/
def answers? (x : Interview P S) : Option (List Bytes) := x.result.toOption

/-- The answers of those interviews to which all questions are answered, in their order. -/
def complete (xs : List (Interview P S)) : List (List Bytes) := xs.filterMap answers?

/-- What the interview about inputs comes to. -/
def outcome (x : Interview P S) (inputs : List Input) : Except CollectError Outcome :=
  match x.result with
  | .ok answers => .ok ⟨List.zipWith FoundValue.ofInput inputs answers⟩
  | .error (i, e) => .error (.ofQuery i.name e)

variable {x : Interview P S} {xs : List (Interview P S)}

lemma complete_cons_of_ok {answers : List Bytes} (h : x.result = .ok answers) :
    complete (x :: xs) = answers :: complete xs := by
  have ha : x.answers? = some answers := by rw [answers?, h]; rfl
  rw [complete, List.filterMap_cons, ha, complete]

lemma complete_cons_of_error {e : Input × EngineError} (h : x.result = .error e) :
    complete (x :: xs) = complete xs := by
  have ha : x.answers? = none := by rw [answers?, h]; rfl
  rw [complete, List.filterMap_cons, ha, complete]

end Interview

/-- In an interview to which all questions are answered there is one block of exchanges for
every input, and it ends with the answer to the question about that input. -/
lemma Interviewed.blocks {state : S} {inputs : List Input} {x : List (Exchange P S)}
    {answers : List Bytes} (h : Interviewed state inputs x (.ok answers)) :
    ∃ blocks : List (List (Exchange P S)),
      x = blocks.flatten ∧ blocks.length = inputs.length ∧ answers.length = inputs.length ∧
        ∀ (j : Nat) (i : Input), inputs[j]? = some i →
          ∃ block v, blocks[j]? = some block ∧ answers[j]? = some v ∧
            Asked state i.question block (.ok v) := by
  generalize hr : Except.ok answers = r at h
  induction h generalizing answers with
  | finished =>
    obtain rfl := Except.ok.inj hr
    exact ⟨[], by simp⟩
  | refused => exact absurd hr (by simp)
  | @answered i inputs x y v r hask _ ih =>
    rcases r with e | rest
    · exact absurd hr (by simp [Except.map])
    · obtain rfl := Except.ok.inj hr
      obtain ⟨blocks, rfl, hb, ha, hall⟩ := ih rfl
      refine ⟨x :: blocks, by simp, by simp [hb], by simp [ha], ?_⟩
      intro j input hj
      cases j with
      | zero =>
        obtain rfl : i = input := by simpa using hj
        exact ⟨x, v, rfl, rfl, hask⟩
      | succ j => exact hall j input (by simpa using hj)

/-- In any interview there is one block of exchanges for each input that is asked about, and these
are the first ones. -/
lemma Interviewed.exists_blocks {state : S} {inputs : List Input} {x : List (Exchange P S)}
    {r : Except (Input × EngineError) (List Bytes)} (h : Interviewed state inputs x r) :
    ∃ blocks : List (List (Exchange P S)),
      x = blocks.flatten ∧ blocks.length ≤ inputs.length ∧
        ∀ (j : Nat) (i : Input) (block : List (Exchange P S)), inputs[j]? = some i →
          blocks[j]? = some block → ∃ answer, Asked state i.question block answer := by
  induction h with
  | finished => exact ⟨[], rfl, Nat.le_refl 0, nofun⟩
  | @refused i inputs x e hask =>
    refine ⟨[x], by simp, by simp, ?_⟩
    intro j input block hj hblock
    cases j with
    | zero =>
      obtain rfl : i = input := by simpa using hj
      obtain rfl : x = block := by simpa using hblock
      exact ⟨_, hask⟩
    | succ j => exact absurd hblock (by simp)
  | @answered i inputs x y v r hask _ ih =>
    obtain ⟨blocks, rfl, hlength, hall⟩ := ih
    refine ⟨x :: blocks, by simp, by simpa using hlength, ?_⟩
    intro j input block hj hblock
    cases j with
    | zero =>
      obtain rfl : i = input := by simpa using hj
      obtain rfl : x = block := by simpa using hblock
      exact ⟨_, hask⟩
    | succ j => exact hall j input block (by simpa using hj) (by simpa using hblock)

/-- If all questions are answered, there is an answer for every input. -/
lemma Interview.Covers.length_eq {x : Interview P S} {inputs : List Input} {answers : List Bytes}
    (h : x.Covers inputs) (ha : x.answers? = some answers) : answers.length = inputs.length := by
  rcases hr : x.result with e | answers'
  · rw [Interview.answers?, hr] at ha
    exact absurd ha (by simp [Except.toOption])
  · rw [Interview.answers?, hr] at ha
    obtain rfl : answers' = answers := Option.some.inj ha
    rw [Interview.Covers, hr] at h
    obtain ⟨-, -, -, hlen, -⟩ := h.blocks
    exact hlen

/-! ## The work that conducts interviews -/

variable (m : Machine P S σ) (h : Host P S σ)

lemma askContent_runOn (state : S) (file : SimulatedFile) :
    ∃ x answer h', (askContent state file.path : Work P S _).runOn m h = (.ok answer, h') ∧
      Asked state (.content file) x answer ∧ h'.exchanges = h.exchanges ++ x := by
  obtain ⟨found, h₁, hrun, hex⟩ :=
    Work.call_runOn (m := m) (h := h) (.lookupDescriptor state file.path)
  rw [askContent, Work.runOn_bind, hrun]
  match found with
  | .error e => exact ⟨_, .error e, h₁, rfl, .notLookedUp file e, hex⟩
  | .ok (some descriptor) =>
    obtain ⟨answer, h₂, hrun₂, hex₂⟩ := Work.call_runOn (m := m)
      (h := { h₁ with events := h₁.events
        ++ [queryDetail s!"fd {descriptor} found for {file.path}"] })
      (.dumpDescriptor state descriptor)
    refine ⟨_, answer, h₂, ?_, .byDescriptor file descriptor answer, ?_⟩
    · exact hrun₂
    · rw [hex₂, hex, List.append_assoc]
      rfl
  | .ok none =>
    obtain ⟨answer, h₂, hrun₂, hex₂⟩ := Work.call_runOn (m := m)
      (h := { h₁ with events := h₁.events
        ++ [queryDetail s!"no fd found, dumping by path: {file.path}"] })
      (.dumpPath state file.path)
    refine ⟨_, answer, h₂, ?_, .byPath file answer, ?_⟩
    · exact hrun₂
    · rw [hex₂, hex, List.append_assoc]
      rfl

lemma askValue_runOn (state : S) (q : Question) :
    ∃ x answer h', (askValue state q : Work P S _).runOn m h = (.ok answer, h') ∧
      Asked state q x answer ∧ h'.exchanges = h.exchanges ++ x := by
  cases q with
  | bytes unknown =>
    obtain ⟨answer, h', hrun, hex⟩ := Work.call_runOn (m := m) (h := h) (.solve state unknown)
    exact ⟨_, answer, h', hrun, .solved unknown answer, hex⟩
  | content file => exact askContent_runOn m h state file

/-- Asking for values never fails as a piece of work: it conducts an interview, and what it
returns is what the interview comes to. -/
lemma askValues_runOn (state : S) (inputs : List Input) :
    ∃ x r h', (askValues state (inputs.map fun i => (i, i.question)) : Work P S _).runOn m h
        = (.ok (((Interview.mk state x r).outcome inputs).map Outcome.values), h') ∧
      Interviewed state inputs x r ∧ h'.exchanges = h.exchanges ++ x := by
  induction inputs generalizing h with
  | nil => exact ⟨[], .ok [], h, rfl, .finished, by simp⟩
  | cons i inputs ih =>
    obtain ⟨x, answer, h₁, hrun, hask, hex⟩ := askValue_runOn m h state i.question
    rw [List.map_cons, askValues, Work.runOn_bind, hrun]
    rcases answer with e | v
    · exact ⟨x, .error (i, e), h₁, rfl, .refused hask, hex⟩
    · obtain ⟨y, r, h₂, hrest, hint, hex₂⟩ := ih h₁
      refine ⟨x ++ y, r.map (v :: ·), h₂, ?_, .answered hask hint, ?_⟩
      · simp only [Work.runOn_bind, hrest]
        rcases r with ⟨i', e⟩ | answers <;> rfl
      · rw [hex₂, hex, List.append_assoc]

/-- Collecting the outcome of a state conducts the interview about all inputs to be found. -/
lemma collect_runOn {c : Configuration} {b : BoundInputs} (hb : c.bound = .ok b) (state : S) :
    ∃ (x : Interview P S) (h' : Host P S σ), x.state = state ∧ x.Covers c.concolicInputs ∧
      (collect state c b).runOn m h = (.ok (x.outcome c.concolicInputs), h') ∧
      h'.exchanges = h.exchanges ++ x.exchanges := by
  obtain ⟨x, r, h', hrun, hint, hex⟩ := askValues_runOn m h state c.concolicInputs
  refine ⟨⟨state, x, r⟩, h', rfl, hint, ?_, hex⟩
  rw [collect, questions_of_bound hb, Work.runOn_bind, hrun]
  rcases r with ⟨i, e⟩ | answers <;> rfl

end Concolic
