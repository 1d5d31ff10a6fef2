/-
# Targets that are given up

The work on a document is given up at its first error, and the error tells how far the work has
got.  Errors of the configuration and of its binding come before the engine is called for the
first time; errors of the engine come from one of its calls, the last one; and only then are
directories and files made, which fails with errors of files and records alone.

So a target that is given up because of its configuration, its binding or its engine leaves no
output behind, and the configuration is to blame exactly if the engine has not been called.

* `Work.FailsWith` says with which errors a piece of work can fail;
* `Conversed.blames_iff` reads off a conversation who is to blame for its error.
-/
import Concolic.Proofs.Run.Collection
import Concolic.Proofs.Run.Conversation
import Concolic.Proofs.Run.Writing

namespace Concolic

variable {P S σ α β : Type} {p : RunError → Prop} {m : Machine P S σ} {h h' : Host P S σ}

/-! ## The errors that work can fail with -/

namespace Work

/-- Whatever the surroundings, if the work fails, then with an error of this kind. -/
def FailsWith (σ : Type) (p : RunError → Prop) (w : Work P S α) : Prop :=
  ∀ (m : Machine P S σ) (h : Host P S σ) e h', w.runOn m h = (.error e, h') → p e

lemma failsWith_pure (a : α) : (pure a : Work P S α).FailsWith σ p := by
  intro m h e h' hr
  exact nomatch congrArg Prod.fst hr

lemma FailsWith.bind {w : Work P S α} {f : α → Work P S β} (hw : w.FailsWith σ p)
    (hf : ∀ a, (f a).FailsWith σ p) : (w >>= f).FailsWith σ p := by
  intro m h e h' hr
  rcases runOn_bind_cases hr with ⟨e', he, hfirst⟩ | ⟨a, h₁, -, hsecond⟩
  · obtain rfl := Except.error.inj he
    exact hw m h e h' hfirst
  · exact hf a m h₁ e h' hsecond

lemma failsWith_orFail {ε : Type} {toError : ε → RunError} (hp : ∀ e, p (toError e))
    (r : Except ε α) : (orFail toError r : Work P S α).FailsWith σ p := by
  intro m h e h' hr
  rw [runOn_orFail] at hr
  rcases r with cause | a
  · rw [← Except.error.inj (congrArg Prod.fst hr)]
    exact hp cause
  · exact nomatch congrArg Prod.fst hr

lemma failsWith_lift (x : Action P S α) : FailsWith (P := P) (S := S) σ p (ExceptT.lift x) := by
  intro m h e h' hr
  rw [runOn_lift] at hr
  exact nomatch congrArg Prod.fst hr

lemma failsWith_file (op : FileOperation) :
    (file op : Work P S op.Answer).FailsWith σ p := failsWith_lift _

lemma failsWith_tell (e : Log.Event) : (tell e : Work P S Unit).FailsWith σ p := failsWith_lift _

lemma failsWith_traced {ε : Type} {toError : ε → RunError} (hp : ∀ e, p (toError e))
    (x : Traced ε α) : (traced toError x : Work P S α).FailsWith σ p := by
  intro m h e h' hr
  obtain ⟨cause, -, rfl, -⟩ := traced_runOn_eq_error hr
  exact hp cause

end Work

namespace RunError

/-- The error is one of the configuration, of its binding or of the engine. -/
inductive ComesBeforeOutput : RunError → Prop
  | configuration (cause : Configuration.Error) : ComesBeforeOutput (.configuration cause)
  | binding (gap : BindingGap) : ComesBeforeOutput (.binding gap)
  | engine (cause : EngineError) : ComesBeforeOutput (.engine cause)

/-- The error is one of a file or of a record. -/
inductive ConcernsOutput : RunError → Prop
  | file (path : Path) (fault : SystemFault) : ConcernsOutput (.file path fault)
  | record (cause : Record.Error) : ConcernsOutput (.record cause)

lemma ConcernsOutput.not_before {e : RunError} (h : e.ConcernsOutput) :
    ¬ e.ComesBeforeOutput ∧ e.isConfigurationError = false := by
  cases h with
  | file path fault => exact ⟨nofun, rfl⟩
  | record cause => exact ⟨nofun, rfl⟩

end RunError

/-! ## Loading -/

/-- Loading a configuration looks at files only. -/
lemma keeps_loadConfiguration (document : Path) :
    (loadConfiguration document : Work P S Configuration).Keeps (σ := σ)
      fun h => (h.files, h.exchanges) := by
  have hlook : ∀ (op : FileOperation), (∀ t, (op.run t).2 = t) →
      (Work.file op : Work P S op.Answer).Keeps (σ := σ) fun h => (h.files, h.exchanges) := by
    intro op hop m h
    rw [Work.runOn_file]
    exact congrArg (·, h.exchanges) (hop h.files)
  have htold : ∀ {ε : Type} (toError : ε → RunError) (x : Traced ε Configuration),
      (Work.traced toError x : Work P S Configuration).Keeps (σ := σ)
        fun h => (h.files, h.exchanges) := by
    intro ε toError x m h
    rw [Work.runOn_traced]
  refine (hlook (.isFile document) fun _ => rfl).bind fun there => ?_
  split
  · exact (hlook (.read document) fun _ => rfl).bind fun _ => (Work.keeps_orFail _ _).bind
      fun _ => (Work.keeps_orFail _ _).bind fun _ => Work.Keeps.bind (fun _ _ => rfl)
      fun _ => (Work.keeps_orFail _ _).bind fun _ => (Work.keeps_orFail _ _).bind
      fun executable => (hlook (.isFile executable) fun _ => rfl).bind fun _ => htold _ _
  · exact Work.keeps_orFail _ _

lemma failsWith_loadConfiguration (document : Path) :
    (loadConfiguration document : Work P S Configuration).FailsWith σ
      fun e => ∃ cause, e = .configuration cause := by
  refine (Work.failsWith_file _).bind fun there => ?_
  split
  · exact (Work.failsWith_file _).bind fun _ => (Work.failsWith_orFail (fun _ => ⟨_, rfl⟩) _).bind
      fun _ => (Work.failsWith_orFail (fun _ => ⟨_, rfl⟩) _).bind
      fun _ => (Work.failsWith_tell _).bind
      fun _ => (Work.failsWith_orFail (fun _ => ⟨_, rfl⟩) _).bind
      fun _ => (Work.failsWith_orFail (fun _ => ⟨_, rfl⟩) _).bind
      fun _ => (Work.failsWith_file _).bind
      fun _ => Work.failsWith_traced (fun _ => ⟨_, rfl⟩) _
  · exact Work.failsWith_orFail (fun _ => ⟨_, rfl⟩) _

/-! ## Conversations that fail -/

section Conversations

variable {policy : Policy} {c : Configuration} {opening : List (Exchange P S)}
  {interviews : List (Interview P S)}

/-- A conversation that fails has an error of the binding, and then nothing has been asked, or
an error of the engine, and then something has. -/
lemma Conversed.blames_iff {e : RunError} (hc : Conversed policy c opening interviews (.error e)) :
    e.ComesBeforeOutput ∧ (e.isConfigurationError = true ↔
      opening ++ interviews.flatMap Interview.exchanges = []) := by
  generalize hr : Except.error e = r at hc
  cases hc with
  | unbound =>
    obtain rfl := Except.error.inj hr
    exact ⟨.binding _, by simp [RunError.isConfigurationError]⟩
  | notLoaded | notEntered | notExplored =>
    obtain rfl := Except.error.inj hr
    exact ⟨.engine _, by simp [RunError.isConfigurationError]⟩
  | @explored _ _ _ _ _ r' =>
    rcases r' with cause | v
    · obtain rfl := Except.error.inj hr
      exact ⟨.engine _, by simp [RunError.isConfigurationError]⟩
    · exact nomatch hr

/-- In a conversation that succeeds something has been asked. -/
lemma Conversed.ne_nil_of_ok {v : Harvest} (hc : Conversed policy c opening interviews (.ok v)) :
    opening ++ interviews.flatMap Interview.exchanges ≠ [] := by
  generalize hr : Except.ok v = r at hc
  cases hc with
  | explored => simp
  | unbound | notLoaded | notEntered | notExplored => exact nomatch hr

end Conversations

/-! ## Output -/

lemma failsWith_prepare (r : RunDirectory) (document : Path) :
    (Layout.prepare r document : Work P S Layout).FailsWith σ RunError.ConcernsOutput := by
  have hfile : ∀ {α : Type} (path : Path) (x : Except SystemFault α),
      (Work.orFailAt path x : Work P S α).FailsWith σ RunError.ConcernsOutput :=
    fun path x => Work.failsWith_orFail (RunError.ConcernsOutput.file path) x
  refine (Work.failsWith_file _).bind fun _ => (hfile _ _).bind fun _ =>
    (Work.failsWith_file _).bind fun _ => (hfile _ _).bind fun _ =>
    (Work.failsWith_file _).bind fun there => ?_
  split
  · exact (Work.failsWith_file _).bind fun _ => (hfile _ _).bind fun _ => Work.failsWith_pure _
  · exact (Work.failsWith_tell _).bind fun _ => Work.failsWith_pure _

lemma failsWith_writeTestCases (l : Layout) (n : Nat) (os : List Outcome) :
    (writeTestCases l n os : Work P S (List Path)).FailsWith σ RunError.ConcernsOutput := by
  have hone : ∀ (path : Path) (o : Outcome),
      (writeTestCase path o : Work P S Nat).FailsWith σ RunError.ConcernsOutput := by
    intro path o
    exact (Work.failsWith_file _).bind fun _ =>
      (Work.failsWith_orFail (RunError.ConcernsOutput.file path) _).bind fun _ =>
      (Work.failsWith_file _).bind fun _ =>
      (Work.failsWith_orFail (fun _ => RunError.ConcernsOutput.record _) _).bind fun _ =>
      (Work.failsWith_orFail RunError.ConcernsOutput.record _).bind fun _ =>
      (Work.failsWith_tell _).bind fun _ => Work.failsWith_pure _
  induction os generalizing n with
  | nil => exact Work.failsWith_pure _
  | cons o os ih =>
    exact (hone _ o).bind fun _ => (ih (n + 1)).bind fun _ => Work.failsWith_pure _

/-! ## The work on a document -/

/-- **A target that is given up before its output leaves none, and its error tells whether the
engine has been called.**  Whatever the document, the files and the engine: if the work on the
document ends with an error of the configuration, of its binding or of the engine, then the files
are as before; and the configuration is to blame exactly if nothing has been asked. -/
theorem processDocument_fails_without_output {policy : Policy} {r : RunDirectory}
    {document : Path} {e : RunError}
    (ran : (processDocument policy r document).runOn m h = (.error e, h')) :
    (e.ComesBeforeOutput → h'.files = h.files) ∧
      ∃ asked, h'.exchanges = h.exchanges ++ asked ∧
        (e.isConfigurationError = true ↔ asked = []) := by
  rcases Work.runOn_bind_cases ran with ⟨e', he, hload⟩ | ⟨c, h₁, hload, hprocess⟩
  · -- the configuration cannot be loaded
    obtain rfl := Except.error.inj he
    obtain ⟨cause, rfl⟩ := failsWith_loadConfiguration document m h e h' hload
    obtain ⟨hfiles, hex⟩ := Prod.mk.inj ((keeps_loadConfiguration document).of_runOn hload)
    exact ⟨fun _ => hfiles, [], by simpa using hex, by simp [RunError.isConfigurationError]⟩
  obtain ⟨hfiles₁, hex₁⟩ := Prod.mk.inj ((keeps_loadConfiguration document).of_runOn hload)
  rcases Work.runOn_bind_cases hprocess with ⟨e', he, hharvest⟩ | ⟨v, h₂, hharvest, hwrite⟩
  · -- there is no harvest
    obtain rfl := Except.error.inj he
    obtain ⟨opening, interviews, hconv, hex⟩ := conversed_of_runOn hharvest
    obtain ⟨-, hblame⟩ := hconv.blames_iff
    have hfiles : h'.files = h.files :=
      ((keeps_files_harvest policy c).of_runOn hharvest).trans hfiles₁
    exact ⟨fun _ => hfiles, _, by rw [hex, hex₁], hblame⟩
  · -- there is a harvest, so something has been asked, and the output fails
    obtain ⟨opening, interviews, hconv, hex⟩ := conversed_of_runOn hharvest
    have hasked := hconv.ne_nil_of_ok
    have houtput : e.ConcernsOutput :=
      ((failsWith_prepare r document).bind fun l =>
        (failsWith_writeTestCases l 1 v.outcomes).bind fun _ => (Work.failsWith_tell _).bind
          fun _ => Work.failsWith_pure _) m h₂ e h' hwrite
    have hquiet : h'.exchanges = h₂.exchanges :=
      ((keeps_exchanges_prepare r document).bind fun l =>
        (keeps_exchanges_writeTestCases l 1 v.outcomes).bind fun _ =>
          (Work.keeps_exchanges_tell _).bind fun _ => Work.keeps_pure _).of_runOn hwrite
    obtain ⟨hbefore, hblame⟩ := houtput.not_before
    refine ⟨fun h => absurd h hbefore, _, by rw [hquiet, hex, hex₁], ?_⟩
    simp only [hblame, hasked, Bool.false_eq_true]

/-! ### An engine that is lost at the second state -/

/-- A document that declares a program with one argument that is to be found. -/
def abandonedDocument : Bytes := Utf8.encode
  "<c><exec><![CDATA[/bin/tool]]></exec><arg index=\"1\" size=\"4\" concolic=\"true\"/></c>"

/-- A tree with the document and the program. -/
def abandonedTree : FileTree where
  entries := [((Path.ofString "bin").pieces, .directory),
    ((Path.ofString "bin/tool").pieces, .file []),
    ((Path.ofString "doc.xml").pieces, .file abandonedDocument)]
  current := []

/-- A machine whose engines are lost at the fifth call. -/
def abandonedMachine : Machine Path Nat (Nat × Script) where
  launch _ _ := (.error (.engine .closed), [])
  engine := scriptedEngine.withFaults [(4, .closed)]
  close s := (s, [])

/-- A host on which a script with two states is played. -/
def abandonedHost : Host Path Nat (Nat × Script) :=
  { Host.new abandonedTree "" with session := some (0, .new [sampleState] [sampleState] none) }

/-- What comes of it. -/
def abandonedRun : Except RunError TargetReport × Host Path Nat (Nat × Script) :=
  (processDocument .singleFork ⟨.ofString "/out"⟩ (.ofString "/doc.xml")).runOn abandonedMachine
    abandonedHost

/-- The outcome of the first state has been collected when the engine is lost, and nothing is
written. -/
theorem processDocument_fails_without_output_sample :
    abandonedRun.1 = .error (.engine .closed) ∧ abandonedRun.2.files = abandonedTree ∧
      abandonedRun.2.exchanges ≠ [] := by
  have ran : abandonedRun.1 = .error (.engine .closed) := by decide +kernel
  rcases hrun : abandonedRun with ⟨result, h'⟩
  rw [hrun] at ran
  obtain rfl : result = .error (.engine .closed) := ran
  obtain ⟨hfiles, asked, hex, hblame⟩ := processDocument_fails_without_output hrun
  have hasked : asked ≠ [] := fun hnil => nomatch hblame.mpr hnil
  have hstart : abandonedHost.exchanges = [] := rfl
  rw [hstart, List.nil_append] at hex
  exact ⟨rfl, hfiles (.engine .closed), hex ▸ hasked⟩

end Concolic
