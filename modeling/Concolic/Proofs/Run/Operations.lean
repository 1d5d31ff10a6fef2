/-
# What work asks for

Which operations occur in a tree of steps can be seen from the tree alone, whatever the answers
are.  Collecting outcomes only puts queries about states to the engine and tells events, a
harvest only talks to the engine and tells events, and all of the work with an engine does no more
than that and what it does with files.  What holds of all work of such a kind is shown once, by
induction on the tree.
-/
import Concolic.Run.Harvest
import Concolic.Proofs.Run.Carrying

namespace Concolic

variable {P S σ τ α β : Type} {p q : Operation P S → Prop} {m : Machine P S σ} {h h' : Host P S σ}

namespace Action

/-- Every operation of the tree is of this kind, whatever is answered before it. -/
def Uses (p : Operation P S → Prop) : Action P S α → Prop
  | .done _ => True
  | .step op next => p op ∧ ∀ answer, (next answer).Uses p

lemma Uses.bind {x : Action P S α} {f : α → Action P S β} (hx : x.Uses p)
    (hf : ∀ a, (f a).Uses p) : (x >>= f).Uses p := by
  show (x.bind f).Uses p
  induction x with
  | done a => exact hf a
  | step op next ih => exact ⟨hx.1, fun answer => ih answer (hx.2 answer)⟩

lemma Uses.mono {x : Action P S α} (hx : x.Uses p) (hpq : ∀ op, p op → q op) : x.Uses q := by
  induction x with
  | done a => trivial
  | step op next ih => exact ⟨hpq op hx.1, fun answer => ih answer (hx.2 answer)⟩

/-- A part of the surroundings that no operation of a kind touches is the same after a run of such
operations. -/
lemma Uses.run_keeps {x : Action P S α} (hx : x.Uses p) (part : Host P S σ → τ)
    (hp : ∀ (op : Operation P S) (h : Host P S σ), p op → part (h.perform m op).2 = part h) :
    part (x.run m h).2 = part h := by
  induction x generalizing h with
  | done a => rfl
  | step op next ih => exact (ih _ (hx.2 _)).trans (hp op h hx.1)

end Action

namespace Work

/-- Every operation of the work is of this kind. -/
def Uses (p : Operation P S → Prop) (w : Work P S α) : Prop := Action.Uses p (ExceptT.run w)

lemma uses_pure (a : α) : (pure a : Work P S α).Uses p := trivial

lemma Uses.bind {w : Work P S α} {f : α → Work P S β} (hw : w.Uses p) (hf : ∀ a, (f a).Uses p) :
    (w >>= f).Uses p := by
  refine Action.Uses.bind hw fun r => ?_
  cases r with
  | ok a => exact hf a
  | error e => trivial

lemma Uses.mono {w : Work P S α} (hw : w.Uses p) (hpq : ∀ op, p op → q op) : w.Uses q :=
  Action.Uses.mono hw hpq

lemma uses_orFail {ε : Type} (toError : ε → RunError) (r : Except ε α) :
    (orFail toError r : Work P S α).Uses p := trivial

lemma uses_tell {e : Log.Event} (h : p (.tell e)) : (tell e : Work P S Unit).Uses p :=
  ⟨h, fun _ => trivial⟩

lemma uses_call {c : Call P S} (h : p (.ask c)) : (call c).Uses p := ⟨h, fun _ => trivial⟩

lemma uses_demand {c : Call P S} (h : p (.ask c)) : (demand c).Uses p :=
  (uses_call h).bind fun _ => uses_orFail _ _

lemma uses_forM {l : List β} {f : β → Work P S Unit} (h : ∀ b, (f b).Uses p) :
    (l.forM f).Uses p := by
  induction l with
  | nil => exact uses_pure ()
  | cons b l ih => exact (h b).bind fun _ => ih

lemma uses_tells {events : List Log.Event} (h : ∀ e, p (.tell e)) :
    (events.forM tell : Work P S Unit).Uses p := uses_forM fun e => uses_tell (h e)

lemma uses_traced {ε : Type} {toError : ε → RunError} {x : Traced ε α} (h : ∀ e, p (.tell e)) :
    (traced toError x : Work P S α).Uses p :=
  (uses_tells h).bind fun _ => uses_orFail _ _

lemma uses_lift {x : Action P S α} (hx : x.Uses p) : (ExceptT.lift x : Work P S α).Uses p :=
  hx.bind fun _ => trivial

lemma uses_file {op : FileOperation} (h : p (.file op)) :
    (file op : Work P S op.Answer).Uses p := ⟨h, fun _ => trivial⟩

/-- Work with an engine of its own also starts and closes this one. -/
lemma uses_withEngine {command : EngineCommand} {w : Work P S α} (hw : w.Uses p)
    (hlaunch : p (.launch command)) (hclose : p .close) : (withEngine command w).Uses p := by
  have hstart : Uses p (ExceptT.lift (Action.ask (.launch command)) : Work P S _) :=
    uses_lift ⟨hlaunch, fun _ => trivial⟩
  have hend : Uses p (ExceptT.lift (Action.ask .close) : Work P S _) :=
    uses_lift ⟨hclose, fun _ => trivial⟩
  exact Uses.bind hstart fun _ => Uses.bind (uses_orFail _ _) fun _ =>
    Uses.bind (uses_lift hw) fun _ => Uses.bind hend fun _ => uses_orFail _ _

end Work

/-! ## Collecting and harvesting -/

/-- The state that a query is about; the calls that lead to the states are about none. -/
def Call.subject? : Call P S → Option S
  | .load _ => none
  | .entryState .. => none
  | .explore .. => none
  | .solve state _ => some state
  | .lookupDescriptor state _ => some state
  | .dumpDescriptor state _ => some state
  | .dumpPath state _ => some state

namespace Operation

/-- The operation puts a query about a state to the engine, or tells an event. -/
def IsQuery : Operation P S → Prop
  | .ask call => call.subject? ≠ none
  | .tell _ => True
  | _ => False

/-- The operation calls the engine that is running, or tells an event. -/
def IsTalk : Operation P S → Prop
  | .ask _ => True
  | .tell _ => True
  | _ => False

lemma IsQuery.isTalk {op : Operation P S} (h : op.IsQuery) : op.IsTalk := by
  cases op with
  | ask | tell => trivial
  | file | launch | close | print | stamp => exact h.elim

end Operation

lemma uses_isQuery_askValue (state : S) (question : Question) :
    (askValue state question : Work P S _).Uses Operation.IsQuery := by
  have hcall : ∀ {c : Call P S}, c.subject? = some state →
      (Work.call c).Uses Operation.IsQuery :=
    fun hc => Work.uses_call (by simp [Operation.IsQuery, hc])
  cases question with
  | bytes unknown => exact hcall rfl
  | content file =>
    refine (hcall (c := .lookupDescriptor state file.path) rfl).bind fun found => ?_
    split
    · exact Work.uses_pure _
    · exact (Work.uses_tell trivial).bind fun _ => hcall rfl
    · exact (Work.uses_tell trivial).bind fun _ => hcall rfl

lemma uses_isQuery_askValues (state : S) (questions : List (Input × Question)) :
    (askValues state questions : Work P S _).Uses Operation.IsQuery := by
  induction questions with
  | nil => exact Work.uses_pure _
  | cons q questions ih =>
    obtain ⟨input, question⟩ := q
    refine (uses_isQuery_askValue state question).bind fun answer => ?_
    split
    · exact Work.uses_pure _
    · refine ih.bind fun values => ?_
      split <;> exact Work.uses_pure _

/-- Collecting outcomes only puts queries to the engine and tells events. -/
lemma uses_isQuery_collectAll (c : Configuration) (b : BoundInputs) (states : List S) :
    (collectAll c b states : Work P S Harvest).Uses Operation.IsQuery := by
  induction states with
  | nil => exact Work.uses_pure _
  | cons state states ih =>
    have hcollect : (collect state c b : Work P S _).Uses Operation.IsQuery := by
      refine (uses_isQuery_askValues state _).bind fun values => ?_
      split <;> exact Work.uses_pure _
    refine hcollect.bind fun outcome => ?_
    split
    · exact ih.bind fun _ => Work.uses_pure _
    · exact (Work.uses_tell trivial).bind fun _ => ih.bind fun _ => Work.uses_pure _
    · exact Work.uses_orFail _ _

/-- A harvest only talks to the engine and tells events. -/
lemma uses_isTalk_harvest (policy : Policy) (c : Configuration) :
    (harvest policy c : Work P S Harvest).Uses Operation.IsTalk :=
  (Work.uses_traced fun _ => trivial).bind fun b => (Work.uses_demand trivial).bind fun _ =>
    (Work.uses_demand trivial).bind fun _ => (Work.uses_tell trivial).bind fun _ =>
    (Work.uses_demand trivial).bind fun found => (Work.uses_tell trivial).bind fun _ =>
    (uses_isQuery_collectAll c b found.states).mono fun _ => Operation.IsQuery.isTalk

/-! ## The work with an engine -/

/-- The operation does something with files, calls the engine that is running, or tells an
event. -/
def Operation.IsPlain : Operation P S → Prop
  | .file _ => True
  | .ask _ => True
  | .tell _ => True
  | _ => False

lemma Operation.IsTalk.isPlain {op : Operation P S} (h : op.IsTalk) : op.IsPlain := by
  cases op with
  | ask | tell => trivial
  | file | launch | close | print | stamp => exact h.elim

lemma uses_isPlain_prepare (r : RunDirectory) (document : Path) :
    (Layout.prepare r document : Work P S Layout).Uses Operation.IsPlain := by
  refine (Work.uses_file trivial).bind fun _ => (Work.uses_orFail _ _).bind fun _ =>
    (Work.uses_file trivial).bind fun _ => (Work.uses_orFail _ _).bind fun _ =>
    (Work.uses_file trivial).bind fun there => ?_
  split
  · exact (Work.uses_file trivial).bind fun _ => (Work.uses_orFail _ _).bind fun _ =>
      Work.uses_pure _
  · exact (Work.uses_tell trivial).bind fun _ => Work.uses_pure _

lemma uses_isPlain_writeTestCases (l : Layout) (number : Nat) (outcomes : List Outcome) :
    (writeTestCases l number outcomes : Work P S (List Path)).Uses Operation.IsPlain := by
  induction outcomes generalizing number with
  | nil => exact Work.uses_pure _
  | cons o outcomes ih =>
    have hone : (writeTestCase (l.testCasePath number) o : Work P S Nat).Uses
        Operation.IsPlain :=
      (Work.uses_file trivial).bind fun _ => (Work.uses_orFail _ _).bind fun _ =>
        (Work.uses_file trivial).bind fun _ => (Work.uses_orFail _ _).bind fun _ =>
        (Work.uses_orFail _ _).bind fun _ => (Work.uses_tell trivial).bind fun _ =>
        Work.uses_pure _
    exact hone.bind fun _ => (ih (number + 1)).bind fun _ => Work.uses_pure _

/-- The work with an engine starts and closes none, and prints nothing. -/
lemma uses_isPlain_process {policy : Policy} {r : RunDirectory} {document : Path}
    (c : Configuration) :
    (process policy r document c : Work P S TargetReport).Uses Operation.IsPlain :=
  ((uses_isTalk_harvest policy c).mono fun _ => Operation.IsTalk.isPlain).bind fun v =>
    (uses_isPlain_prepare r document).bind fun l =>
    (uses_isPlain_writeTestCases l 1 v.outcomes).bind fun _ =>
    (Work.uses_tell trivial).bind fun _ => Work.uses_pure _

/-! ## Files -/

lemma Operation.IsTalk.files_perform {op : Operation P S} (hop : op.IsTalk) :
    (h.perform m op).2.files = h.files := by
  cases op with
  | ask call => exact Host.files_perform_ask call
  | tell event => rfl
  | file | launch | close | print | stamp => exact hop.elim

/-- Talking to the engine touches no files. -/
lemma Action.Uses.files_run {x : Action P S α} (hx : x.Uses Operation.IsTalk) :
    (x.run m h).2.files = h.files :=
  hx.run_keeps Host.files fun _ _ => Operation.IsTalk.files_perform

/-- **Nothing is written before all outcomes have been collected.** -/
lemma keeps_files_harvest (policy : Policy) (c : Configuration) :
    (harvest policy c : Work P S Harvest).Keeps (σ := σ) Host.files :=
  fun _ _ => (uses_isTalk_harvest policy c).files_run

/-! ## Work that only reads -/

/-- The operation looks at files, or tells an event. -/
def Operation.Reads : Operation P S → Prop
  | .file op => ∀ t, (op.run t).2 = t
  | .tell _ => True
  | _ => False

/-- What comes of reading depends on the files only. -/
lemma Action.Uses.run_fst_eq {x : Action P S α} {m' : Machine P S σ}
    (hx : x.Uses Operation.Reads) (hfiles : h'.files = h.files) :
    (x.run m' h').1 = (x.run m h).1 := by
  induction x generalizing h h' with
  | done a => rfl
  | step op next ih =>
    rw [Action.run_step, Action.run_step]
    have hstep : (h'.perform m' op).1 = (h.perform m op).1 ∧
        (h'.perform m' op).2.files = (h.perform m op).2.files := by
      cases op with
      | file op =>
        simp only [Host.perform, hfiles]
        exact ⟨rfl, trivial⟩
      | tell event => exact ⟨rfl, hfiles⟩
      | launch | ask | close | print | stamp => exact hx.1.elim
    rw [hstep.1]
    exact ih _ (hx.2 _) hstep.2

lemma Operation.Reads.files_perform {op : Operation P S} (hop : op.Reads) :
    (h.perform m op).2.files = h.files := by
  cases op with
  | file op => exact hop h.files
  | tell event => rfl
  | launch | ask | close | print | stamp => exact hop.elim

/-- Reading leaves the files alone. -/
lemma Work.Uses.keeps_files {w : Work P S α} (hw : w.Uses Operation.Reads) :
    w.Keeps (σ := σ) Host.files :=
  fun _ _ => Action.Uses.run_keeps hw Host.files fun _ _ => Operation.Reads.files_perform

lemma uses_reads_readFile (path : Path) :
    (Work.readFile path : Work P S (Except SystemFault Bytes)).Uses Operation.Reads :=
  ⟨fun _ => rfl, fun _ => trivial⟩

lemma uses_reads_isFile (path : Path) : (Work.isFile path : Work P S Bool).Uses Operation.Reads :=
  ⟨fun _ => rfl, fun _ => trivial⟩

/-- Loading a configuration only reads. -/
lemma uses_reads_loadConfiguration (document : Path) :
    (loadConfiguration document : Work P S Configuration).Uses Operation.Reads := by
  refine (uses_reads_isFile document).bind fun there => ?_
  split
  · exact (uses_reads_readFile document).bind fun _ => (Work.uses_orFail _ _).bind fun _ =>
      (Work.uses_orFail _ _).bind fun _ => (Work.uses_tell trivial).bind fun _ =>
      (Work.uses_orFail _ _).bind fun _ => (Work.uses_orFail _ _).bind fun executable =>
      (uses_reads_isFile executable).bind fun _ => Work.uses_traced fun _ => trivial
  · exact Work.uses_orFail _ _

end Concolic
