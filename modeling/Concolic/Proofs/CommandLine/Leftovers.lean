/-
# What a failing command leaves

The command to work on one document resolves its settings, loads the configuration, starts the
engine, makes the run directory, and only then binds the inputs and talks to the engine.  So
what a failure leaves depends on whether it comes before or after the run directory is made:

* before, nothing has been touched: the settings and the configuration are only read;
* after, an error of the binding or of the engine comes before any output of the document, so the
  run directory is there, with the directories above it that were missing, and nothing else.
-/
import Concolic.CommandLine.Command
import Concolic.Engine.Scripted
import Concolic.Proofs.FileTree.Placement
import Concolic.Proofs.Run.Abandoned
import Concolic.Proofs.Run.Launches

namespace Concolic

variable {P S σ α β : Type} {m : Machine P S σ} {h h' : Host P S σ}

/-! ## Pieces of work -/

/-- The path of a run directory that is made now. -/
def RunDirectory.pathAt (parent : Path) (stamp : String) : Path :=
  parent.join (.ofString (runDirectoryStem ++ stamp))

/-- A run directory is made at its path, or there is an error of a file. -/
lemma RunDirectory.makeIn_runOn {parent : Path} {r : Except RunError RunDirectory}
    (hr : (RunDirectory.makeIn parent).runOn m h = (r, h')) :
    (∃ e, r = .error e ∧ e.ConcernsOutput) ∨
      ∃ made, r = .ok made ∧
        h.files.makeDirectories (pathAt parent h.stamp) = (.ok (), h'.files) := by
  have hstamp : (Work.stamp : Work P S String).runOn m h = (.ok h.stamp, h) := Work.runOn_lift _
  have hstamped := Work.runOn_of_bind hr hstamp
  have hmake := Work.runOn_of_bind hstamped (Work.runOn_file _)
  rcases Work.runOn_bind_cases hmake with ⟨e, rfl, hfail⟩ | ⟨_, h₁, hdone, htold⟩
  · exact .inl ⟨e, rfl, Work.failsWith_orFail (RunError.ConcernsOutput.file _) _ m _ e h' hfail⟩
  · obtain ⟨hok, rfl⟩ := Work.runOn_orFail_eq_ok_iff.mp hdone
    obtain ⟨rfl, rfl⟩ := Prod.mk.inj htold
    exact .inr ⟨_, rfl, Prod.ext hok rfl⟩

/-- The work on a target that is given up before its output leaves the files alone. -/
lemma files_of_process_error {policy : Policy} {r : RunDirectory} {document : Path}
    {c : Configuration} {e : RunError}
    (hr : (process policy r document c).runOn m h = (.error e, h')) (he : e.ComesBeforeOutput) :
    h'.files = h.files := by
  rcases Work.runOn_bind_cases hr with ⟨e', -, hharvest⟩ | ⟨v, h₁, -, hwrite⟩
  · exact (keeps_files_harvest policy c).of_runOn hharvest
  · have houtput : e.ConcernsOutput :=
      ((failsWith_prepare r document).bind fun l =>
        (failsWith_writeTestCases l 1 v.outcomes).bind fun _ => (Work.failsWith_tell _).bind
          fun _ => Work.failsWith_pure _) m h₁ e h' hwrite
    exact absurd he houtput.not_before.1

/-! ## Commands -/

namespace CommandLine

/-- Carries a command out. -/
def Task.runOn (m : Machine P S σ) (h : Host P S σ) (t : Task P S α) :
    Except Failure α × Host P S σ := Action.run m h (ExceptT.run t)

/-- Two parts of a command in a row end with the first one, which fails, or with the second. -/
lemma Task.runOn_bind_cases {t : Task P S α} {f : α → Task P S β} {r : Except Failure β}
    (ht : (t >>= f).runOn m h = (r, h')) :
    (∃ e, r = .error e ∧ t.runOn m h = (.error e, h')) ∨
      ∃ a h₁, t.runOn m h = (.ok a, h₁) ∧ (f a).runOn m h₁ = (r, h') := by
  have hrun : Action.run m h (t.run >>= ExceptT.bindCont f) = (r, h') := ht
  rw [Action.run_bind] at hrun
  rcases hfirst : t.runOn m h with ⟨e | a, h₁⟩
  · have hfirst : Action.run m h t.run = (.error e, h₁) := hfirst
    rw [hfirst] at hrun
    obtain ⟨rfl, rfl⟩ := Prod.mk.inj hrun
    exact .inl ⟨e, rfl, rfl⟩
  · have hfirst : Action.run m h t.run = (.ok a, h₁) := hfirst
    rw [hfirst] at hrun
    exact .inr ⟨a, h₁, rfl, hrun⟩

lemma runOn_within (toFailure : RunError → Failure) (w : Work P S α) :
    (within toFailure w).runOn m h = ((w.runOn m h).1.mapError toFailure, (w.runOn m h).2) := by
  show Action.run m h (w.run >>= _) = _
  rw [Action.run_bind]
  rcases hw : w.runOn m h with ⟨e | a, h₁⟩
  · have hw : Action.run m h w.run = (.error e, h₁) := hw
    rw [hw]
    rfl
  · have hw : Action.run m h w.run = (.ok a, h₁) := hw
    rw [hw]
    rfl

lemma within_eq_ok {toFailure : RunError → Failure} {w : Work P S α} {a : α}
    (hw : (within toFailure w).runOn m h = (.ok a, h')) : w.runOn m h = (.ok a, h') := by
  rw [runOn_within] at hw
  rcases hr : w.runOn m h with ⟨e | a', h₁⟩
  · rw [hr] at hw
    exact nomatch congrArg Prod.fst hw
  · rw [hr] at hw
    obtain ⟨ha, rfl⟩ := Prod.mk.inj hw
    exact congrArg (fun a => (Except.ok a, h₁)) (Except.ok.inj ha)

lemma within_eq_error {toFailure : RunError → Failure} {w : Work P S α} {f : Failure}
    (hw : (within toFailure w).runOn m h = (.error f, h')) :
    ∃ e, f = toFailure e ∧ w.runOn m h = (.error e, h') := by
  rw [runOn_within] at hw
  rcases hr : w.runOn m h with ⟨e | a, h₁⟩
  · rw [hr] at hw
    obtain ⟨hf, rfl⟩ := Prod.mk.inj hw
    exact ⟨e, (Except.error.inj hf).symm, rfl⟩
  · rw [hr] at hw
    exact nomatch congrArg Prod.fst hw

/-- Settings are only read. -/
lemma uses_reads_resolve (settings : Option Path) (overrides : Overrides) :
    (resolve settings overrides : Work P S Settings).Uses Operation.Reads := by
  have hvalid : ∀ base : Settings, (do
      Work.orFail .input (base.override overrides).validate
      pure (base.override overrides) : Work P S Settings).Uses Operation.Reads :=
    fun base => (Work.uses_orFail _ _).bind fun _ => Work.uses_pure _
  cases settings with
  | none => exact (Work.uses_pure _).bind hvalid
  | some path =>
    refine Work.Uses.bind ((uses_reads_readFile path).bind fun _ =>
      (Work.uses_orFail _ _).bind fun bytes => ?_) hvalid
    split
    · exact Work.uses_orFail _ _
    · exact (Work.uses_orFail _ _).bind fun _ => (Work.uses_tell trivial).bind fun _ =>
        Work.uses_pure _

lemma keeps_resolve (settings : Option Path) (overrides : Overrides) :
    (resolve settings overrides : Work P S Settings).Keeps (σ := σ) Host.files :=
  (uses_reads_resolve settings overrides).keeps_files

/-- The run directory is made, and then the work on the target ends in one way or the other. -/
lemma attempt_runOn {s : Settings} {document : Path} {c : Configuration}
    {r : Except RunError (Except RunError TargetReport)}
    (hr : (generateOne.attempt s document c).runOn m h = (r, h')) :
    (∃ e, r = .error e ∧ e.ConcernsOutput) ∨
      ∃ directory made h₁, r = .ok made ∧
        h.files.makeDirectories (RunDirectory.pathAt s.outputParent h.stamp)
          = (.ok (), h₁.files) ∧
        (process s.policy directory document c).runOn m h₁ = (made, h') := by
  rcases Work.runOn_bind_cases hr with ⟨e, rfl, hmake⟩ | ⟨directory, h₁, hmake, hprocess⟩
  · rcases RunDirectory.makeIn_runOn hmake with ⟨e', he, houtput⟩ | ⟨made, hmade, -⟩
    · obtain rfl := Except.error.inj he
      exact .inl ⟨e, rfl, houtput⟩
    · exact nomatch hmade
  · rcases RunDirectory.makeIn_runOn hmake with ⟨e, he, -⟩ | ⟨_, -, hfiles⟩
    · exact nomatch he
    · rw [Work.runOn_lift] at hprocess
      obtain ⟨rfl, rfl⟩ := Prod.mk.inj hprocess
      exact .inr ⟨directory, _, h₁, rfl, hfiles, rfl⟩

/-- The failures of a command on one document, and what each of them leaves. -/
lemma generateOne_error {s : Settings} {document : Path} {f : Failure}
    (ran : (generateOne s document).runOn m h = (.error f, h')) :
    (∃ cause, f = .loading document cause ∧ h'.files = h.files) ∨
      (∃ cause, f = .run cause ∧ (cause.ConcernsOutput ∨ h'.files = h.files)) ∨
      ∃ cause, f = .processing document cause ∧ (cause.ComesBeforeOutput →
        h.files.makeDirectories (RunDirectory.pathAt s.outputParent h.stamp)
          = (.ok (), h'.files)) := by
  rcases Task.runOn_bind_cases ran with ⟨f', hf, hload⟩ | ⟨c, h₁, hload, ran₁⟩
  · obtain rfl := Except.error.inj hf
    obtain ⟨cause, rfl, hw⟩ := within_eq_error hload
    exact .inl ⟨cause, rfl, (Prod.mk.inj ((keeps_loadConfiguration document).of_runOn hw)).1⟩
  have hw₁ := within_eq_ok hload
  have hfiles₁ : h₁.files = h.files :=
    (Prod.mk.inj ((keeps_loadConfiguration document).of_runOn hw₁)).1
  rcases Task.runOn_bind_cases ran₁ with ⟨f', hf, hcommand⟩ | ⟨command, h₂, hcommand, ran₂⟩
  · obtain rfl := Except.error.inj hf
    obtain ⟨cause, rfl, hw⟩ := within_eq_error hcommand
    exact .inr (.inl ⟨cause, rfl, .inr (((Work.keeps_orFail _ _).of_runOn hw).trans hfiles₁)⟩)
  obtain ⟨-, rfl⟩ := Work.runOn_orFail_eq_ok_iff.mp (within_eq_ok hcommand)
  rcases Task.runOn_bind_cases ran₂ with ⟨f', hf, hengine⟩ | ⟨made, h₃, hengine, ran₃⟩
  · -- the engine cannot be started, or the run directory cannot be made
    obtain rfl := Except.error.inj hf
    obtain ⟨cause, rfl, hw⟩ := within_eq_error hengine
    refine .inr (.inl ⟨cause, rfl, ?_⟩)
    rcases Work.withEngine_runOn hw with ⟨_, -, hfiles⟩ | ⟨h₃, h₄, -, -, hattempt, -⟩
    · exact .inr (hfiles.trans hfiles₁)
    rcases attempt_runOn hattempt with ⟨e, he, houtput⟩ | ⟨_, _, _, hmade, -⟩
    · obtain rfl := Except.error.inj he
      exact .inl houtput
    · exact nomatch hmade
  rcases Task.runOn_bind_cases ran₃ with ⟨f', hf, hreport⟩ | ⟨report, h₄, -, ran₄⟩
  · -- the work on the target has been given up
    obtain rfl := Except.error.inj hf
    obtain ⟨cause, rfl, hw⟩ := within_eq_error hreport
    refine .inr (.inr ⟨cause, rfl, fun hbefore => ?_⟩)
    rw [Work.runOn_orFail] at hw
    obtain ⟨hcause, rfl⟩ := Prod.mk.inj hw
    rcases Work.withEngine_runOn (within_eq_ok hengine) with
      ⟨_, hmade, -⟩ | ⟨h₄, h₅, hfiles₄, hstamp₄, hattempt, hfiles₅⟩
    · exact nomatch hmade
    rcases attempt_runOn hattempt with
      ⟨_, hmade, -⟩ | ⟨directory, made', h₆, hmade, hroot, hprocess⟩
    · exact nomatch hmade
    obtain rfl := Except.ok.inj hmade
    rcases made with cause' | report
    · obtain rfl : cause' = cause := Except.error.inj hcause
      rw [hfiles₄, hfiles₁, hstamp₄, Work.stamp_of_runOn hw₁] at hroot
      rw [hroot, hfiles₅, files_of_process_error hprocess hbefore]
    · exact nomatch hcause
  · -- what has been printed does not fail
    rcases Task.runOn_bind_cases ran₄ with ⟨f', -, hprint⟩ | ⟨_, h₅, -, hdone⟩
    · obtain ⟨_, -, hw⟩ := within_eq_error hprint
      exact nomatch congrArg Prod.fst hw
    · exact nomatch congrArg Prod.fst hdone

/-- A failure is logged, and that is all that is made of it. -/
lemma run_execute_of_error {c : Command} {f : Failure}
    (ran : (perform c).runOn m h = (.error f, h')) :
    ((execute c).run m h).1 = .failure ∧ ((execute c).run m h).2.files = h'.files := by
  have hrun : Action.run m h (perform c).run = (.error f, h') := ran
  rw [execute, Action.run_bind, hrun]
  exact ⟨rfl, rfl⟩

/-- A run directory has a path that is not empty. -/
lemma pathAt_ne_nil (parent : Path) (stamp : String) :
    (RunDirectory.pathAt parent stamp).bytes ≠ [] := by
  have hstem : Utf8.encode (runDirectoryStem ++ stamp) ≠ [] := by
    rw [Utf8.encode_append]
    exact List.append_ne_nil_of_left_ne_nil (by decide) _
  rw [RunDirectory.pathAt, Path.join]
  split
  · exact hstem
  · split
    · exact List.append_ne_nil_of_right_ne_nil _ hstem
    · exact List.append_ne_nil_of_right_ne_nil _ (List.cons_ne_nil _ _)

/-- **A command that fails leaves the run directory at most.**  If the settings, the
configuration or the engine cannot be had, the files are as before.  If the engine has been
started and then the binding or the engine fails, the run directory is there, and all that has
been made are directories: this one and those above it.  Logging the failure makes nothing. -/
theorem perform_document_error_leaves {settings : Option Path} {overrides : Overrides}
    {document : Path} {f : Failure}
    (ran : (perform (.generate (.document document) settings overrides)).runOn m h
      = (.error f, h')) :
    (∃ cause, f = .run cause ∨ f = .loading document cause ∨ f = .processing document cause) ∧
      (∀ cause, f = .loading document cause ∨ f = .run cause ∧ ¬ cause.ConcernsOutput →
        h'.files = h.files) ∧
      (∀ cause, f = .processing document cause → cause.ComesBeforeOutput →
        ∃ s h₁, (resolve settings overrides).runOn m h = (.ok s, h₁) ∧
          h.files.makeDirectories (RunDirectory.pathAt s.outputParent h.stamp)
            = (.ok (), h'.files) ∧
          h'.files.isDirectory (RunDirectory.pathAt s.outputParent h.stamp) = true ∧
          h.files.GainsDirectories h'.files) ∧
      ((execute (.generate (.document document) settings overrides)).run m h).1 = .failure ∧
      ((execute (.generate (.document document) settings overrides)).run m h).2.files
        = h'.files := by
  have hexecute := run_execute_of_error ran
  rcases Task.runOn_bind_cases ran with ⟨f', hf, hresolve⟩ | ⟨s, h₁, hresolve, hgenerate⟩
  · -- there are no settings to work with
    obtain rfl := Except.error.inj hf
    obtain ⟨cause, rfl, hw⟩ := within_eq_error hresolve
    have hfiles := (keeps_resolve settings overrides).of_runOn hw
    exact ⟨⟨cause, .inl rfl⟩, fun _ _ => hfiles, nofun, hexecute⟩
  have hw := within_eq_ok hresolve
  have hfiles := (keeps_resolve settings overrides).of_runOn hw
  rcases generateOne_error hgenerate with
    ⟨cause, rfl, hsame⟩ | ⟨cause, rfl, houtput⟩ | ⟨cause, rfl, hmade⟩
  · exact ⟨⟨cause, .inr (.inl rfl)⟩, fun _ _ => hsame.trans hfiles, nofun, hexecute⟩
  · refine ⟨⟨cause, .inl rfl⟩, fun cause' hcause => ?_, nofun, hexecute⟩
    rcases hcause with hcause | ⟨hcause, hnot⟩
    · exact nomatch hcause
    · obtain rfl := Failure.run.inj hcause
      exact (houtput.resolve_left hnot).trans hfiles
  · refine ⟨⟨cause, .inr (.inr rfl)⟩, fun _ hcause => ?_, fun cause' hcause hbefore => ?_, hexecute⟩
    · rcases hcause with hcause | ⟨hcause, -⟩
      · exact nomatch hcause
      · exact nomatch hcause
    obtain ⟨-, rfl⟩ := Failure.processing.inj hcause
    -- the run directory is made among the files, and at the time, that the command has found
    have hroot := hmade hbefore
    rw [hfiles, Work.stamp_of_runOn hw] at hroot
    exact ⟨s, h₁, hw, hroot,
      FileTree.isDirectory_of_makeDirectoriesUnder (pathAt_ne_nil _ _) hroot,
      FileTree.gainsDirectories_of_makeDirectories hroot⟩

/-! ### A document with a gap between its arguments -/

/-- A document that declares the third argument and no other. -/
def gapDocument : Bytes := Utf8.encode
  "<c><exec><![CDATA[/bin/tool]]></exec><arg index=\"3\" value=\"v\"/></c>"

/-- A tree with the document and the program. -/
def gapTree : FileTree where
  entries := [((Path.ofString "bin").pieces, .directory),
    ((Path.ofString "bin/tool").pieces, .file []),
    ((Path.ofString "gap.xml").pieces, .file gapDocument)]
  current := []

/-- A machine whose engines start and find nothing. -/
def idleMachine : Machine Path Nat Script where
  launch _ _ := (.ok (.new [] [] none), [])
  engine := scriptedEngine
  close s := (s, [])

/-- The command to work on the document. -/
def gapCommand : Command :=
  .generate (.document (.ofString "/gap.xml")) none
    { Overrides.none with engineProgram := some "engine", outputParent := some (.ofString "/out") }

/-- What comes of it at noon. -/
def gapRun : Except Failure ExitStatus × Host Path Nat Script :=
  (perform gapCommand).runOn idleMachine (Host.new gapTree "noon")

/-- The command fails because of the gap, and a run directory is left. -/
theorem perform_document_error_leaves_sample :
    gapRun.1 = .error (.processing (.ofString "/gap.xml") (.binding ⟨1⟩)) ∧
      gapTree.GainsDirectories gapRun.2.files ∧
      ∃ parent : Path, gapRun.2.files.isDirectory (RunDirectory.pathAt parent "noon") = true := by
  have ran : gapRun.1 = .error (.processing (.ofString "/gap.xml") (.binding ⟨1⟩)) := by
    decide +kernel
  rcases hrun : gapRun with ⟨result, h'⟩
  rw [hrun] at ran
  obtain rfl : result = .error (.processing (.ofString "/gap.xml") (.binding ⟨1⟩)) := ran
  obtain ⟨-, -, hleft, -⟩ := perform_document_error_leaves hrun
  obtain ⟨s, h₁, -, -, hthere, hgains⟩ := hleft _ rfl (.binding _)
  exact ⟨rfl, hgains, s.outputParent, hthere⟩

/-- An error of the binding comes before the output, and still the command leaves directories
that were not there. -/
theorem run_directory_left_by_gap :
    gapRun.1 = .error (.processing (.ofString "/gap.xml") (.binding ⟨1⟩)) ∧
      gapTree.isDirectory (.ofString "/out") = false ∧
      gapRun.2.files.isDirectory (.ofString "/out") = true ∧
      gapRun.2.files.isDirectory (.ofString "/out/concolic-out-noon") = true := by
  decide +kernel

end CommandLine

end Concolic
