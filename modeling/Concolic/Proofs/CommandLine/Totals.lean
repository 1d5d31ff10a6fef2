/-
# What a command on a directory tells

The command to work on the documents of a directory resolves its settings, searches the
directory, makes the run directory, and then works on the documents that it has found.  What it
tells is the report on them: a line for each document for which something was done, a line for
each one that failed, and a line with how many there were of each kind.  It succeeds if none has
failed.

Whatever comes before can fail, too, and then the command fails: it succeeds only if it has got
as far as a report (`Batched`), and until then it prints nothing (`Batched.printed_eq`).
-/
import Concolic.Proofs.CommandLine.Leftovers
import Concolic.Proofs.Run.Accounting
import Concolic.Proofs.Run.Silence

namespace Concolic

variable {P S σ α β : Type} {m : Machine P S σ} {h h' h₀ h₁ h₂ : Host P S σ}

/-- The number of test cases is that of all documents together. -/
lemma BatchReport.testCasesWritten_eq (report : BatchReport) :
    report.testCasesWritten = (report.succeeded.map fun t => t.testCases.length).sum := by
  rw [testCasesWritten, List.sum_eq_foldl, List.foldl_map]

namespace CommandLine

lemma ExitStatus.code_eq_zero_iff {status : ExitStatus} :
    status.code = 0 ↔ status = .success := by
  cases status <;> decide

lemma code_ite_eq_zero_iff {p : Prop} [Decidable p] :
    (if p then ExitStatus.success else .failure).code = 0 ↔ p := by
  rw [ExitStatus.code_eq_zero_iff]
  by_cases h : p <;> simp [h]

/-! ## Telling a report -/

/-- The line with how many documents there were of each kind, and how many test cases were
written. -/
def totals (processed failed skipped written : Nat) (root : Path) : String :=
  s!"{processed} processed, {failed} failed, {skipped} skipped, "
    ++ s!"{written} test case(s) in {root.display}"

/-- The lines of a report: one for each document that did not fail, one for each that did, and
the totals. -/
def announcement (root : Path) (report : BatchReport) : List String :=
  report.succeeded.map (fun t => s!"{t.document.display}: {t.testCases.length} test case(s)")
    ++ report.failed.map (fun x => s!"{x.1.display}: FAILED ({x.2.message})")
    ++ [totals report.succeeded.length report.failed.length report.skipped.length
        (report.succeeded.map fun t => t.testCases.length).sum root]

lemma batchLines_eq (root : Path) (report : BatchReport) :
    batchLines root report = announcement root report := by
  rw [batchLines, report.testCasesWritten_eq]
  rfl

/-- Tells a report and ends accordingly, like the command on a directory. -/
def announce (root : Path) (report : BatchReport) : Work P S ExitStatus := do
  (batchLines root report).forM Work.printLine
  pure (if report.allSucceeded then .success else .failure)

lemma runOn_forM_printLine (lines : List String) :
    (lines.forM Work.printLine : Work P S Unit).runOn m h
      = (.ok (), { h with printed := h.printed ++ lines.map (· ++ "\n") }) := by
  induction lines generalizing h with
  | nil =>
    show (pure () : Work P S Unit).runOn m h = _
    simp
  | cons line lines ih =>
    show (Work.printLine line >>= fun _ => lines.forM Work.printLine : Work P S Unit).runOn m h = _
    have hprint : (Work.printLine line : Work P S Unit).runOn m h
        = (.ok (), { h with printed := h.printed ++ [line ++ "\n"] }) := rfl
    rw [Work.runOn_bind, hprint]
    simp only
    rw [ih]
    simp

/-- Telling a report prints its lines, and ends well if no document has failed. -/
lemma runOn_announce (root : Path) (report : BatchReport) :
    (announce root report).runOn m h
      = (.ok (if report.failed = [] then .success else .failure),
        { h with printed := h.printed ++ (announcement root report).map (· ++ "\n") }) := by
  rw [announce, Work.runOn_bind, runOn_forM_printLine, batchLines_eq]
  simp [BatchReport.allSucceeded]

/-! ## Getting as far as a report -/

/-- A part of a command that does not fail makes way for the one after it. -/
lemma Task.runOn_bind_of_ok {t : Task P S α} {f : α → Task P S β} {a : α}
    (ht : t.runOn m h = (.ok a, h')) : (t >>= f).runOn m h = (f a).runOn m h' := by
  show Action.run m h (t.run >>= ExceptT.bindCont f) = _
  have hrun : Action.run m h t.run = (.ok a, h') := ht
  rw [Action.run_bind, hrun]
  rfl

lemma within_of_ok {toFailure : RunError → Failure} {w : Work P S α} {a : α}
    (hw : w.runOn m h = (.ok a, h')) : (within toFailure w).runOn m h = (.ok a, h') := by
  rw [runOn_within, hw]
  rfl

lemma run_execute_of_ok {c : Command} {status : ExitStatus}
    (ran : (perform c).runOn m h = (.ok status, h')) : (execute c).run m h = (status, h') := by
  have hrun : Action.run m h (perform c).run = (.ok status, h') := ran
  rw [execute, Action.run_bind, hrun]
  rfl

/-- The command on a directory gets as far as the batch: there are settings, the directory can be
searched, an engine is named, and the run directory is made. -/
structure Batched (m : Machine P S σ) (h₀ : Host P S σ) (settings : Option Path)
    (overrides : Overrides) (directory : Path) (s : Settings) (command : EngineCommand)
    (d : Discovery) (r : RunDirectory) (h h₁ h₂ : Host P S σ) : Prop where
  /-- These are the settings. -/
  resolved : (resolve settings overrides).runOn m h₀ = (.ok s, h)
  /-- These are the documents. -/
  found : (discover directory).runOn m h = (.ok d, h₁)
  /-- This starts the engines. -/
  engine : s.engineCommand? = some command
  /-- This is the run directory. -/
  made : (RunDirectory.makeIn s.outputParent).runOn m h₁ = (.ok r, h₂)

variable {settings : Option Path} {overrides : Overrides} {directory : Path} {s : Settings}
  {command : EngineCommand} {d : Discovery} {r : RunDirectory} {report : BatchReport}

/-- Until the report is told, nothing is printed. -/
lemma Batched.printed_eq (hb : Batched m h₀ settings overrides directory s command d r h h₁ h₂)
    (ran : (processBatch command s.policy s.jobs r d).runOn m h₂ = (.ok report, h')) :
    h'.printed = h₀.printed :=
  calc h'.printed = h₂.printed := (uses_printsNone_processBatch _ _).printed_of_runOn ran
    _ = h₁.printed := (uses_printsNone_makeIn _).printed_of_runOn hb.made
    _ = h.printed := printed_of_discover hb.found
    _ = h₀.printed := ((uses_reads_resolve _ _).mono fun _ =>
      Operation.Reads.printsNone).printed_of_runOn hb.resolved

/-- The report is told, and the command succeeds if no document has failed. -/
lemma Batched.run_execute
    (hb : Batched m h₀ settings overrides directory s command d r h h₁ h₂)
    (ran : (processBatch command s.policy s.jobs r d).runOn m h₂ = (.ok report, h')) :
    (execute (.generate (.batch directory) settings overrides)).run m h₀
      = (if report.failed = [] then .success else .failure,
        { h' with printed := h'.printed ++ (announcement r.root report).map (· ++ "\n") }) := by
  refine run_execute_of_ok ?_
  rw [perform, Task.runOn_bind_of_ok (within_of_ok hb.resolved)]
  simp only
  rw [generateBatch, Task.runOn_bind_of_ok (within_of_ok hb.found), hb.engine]
  refine within_of_ok ?_
  rw [Work.runOn_bind, hb.made]
  simp only
  rw [Work.runOn_bind, ran]
  exact runOn_announce _ _

/-- The command succeeds only if it gets as far as a report and no document has failed. -/
lemma exists_batched_of_success
    (hs : ((execute (.generate (.batch directory) settings overrides)).run m h₀).1 = .success) :
    ∃ s command d r h h₁ h₂, Batched m h₀ settings overrides directory s command d r h h₁ h₂ ∧
      ∃ report h₃, (processBatch command s.policy s.jobs r d).runOn m h₂ = (.ok report, h₃) ∧
        report.failed = [] := by
  rcases hrun : (perform (.generate (.batch directory) settings overrides)).runOn m h₀
    with ⟨f | status, h₄⟩
  · rw [(run_execute_of_error hrun).1] at hs
    exact absurd hs (by decide)
  rcases Task.runOn_bind_cases hrun with ⟨_, hf, -⟩ | ⟨s, h, hresolved, hrun₁⟩
  · exact nomatch hf
  rcases Task.runOn_bind_cases hrun₁ with ⟨_, hf, -⟩ | ⟨d, h₁, hfound, hrun₂⟩
  · exact nomatch hf
  rcases hengine : s.engineCommand? with _ | command
  · rw [hengine] at hrun₂
    exact nomatch congrArg Prod.fst hrun₂
  rw [hengine] at hrun₂
  obtain ⟨r, h₂, hmade, hrun₃⟩ := Work.runOn_bind_eq_ok_iff.mp (within_eq_ok hrun₂)
  obtain ⟨report, h₃, hbatch, -⟩ := Work.runOn_bind_eq_ok_iff.mp hrun₃
  have hb : Batched m h₀ settings overrides directory s command d r h h₁ h₂ :=
    ⟨within_eq_ok hresolved, within_eq_ok hfound, hengine, hmade⟩
  refine ⟨s, command, d, r, h, h₁, h₂, hb, report, h₃, hbatch, ?_⟩
  by_contra hfailed
  rw [hb.run_execute hbatch, if_neg hfailed] at hs
  exact absurd hs (by simp)

/-! ## Accounting for a directory -/

/-- **A batch accounts for all documents of a directory, and does for each of them what the work
on it comes to alone.**

The tree in which the documents are found is one that a system can show, the run directory stands
at `base`, and no document, companion or executable lies below it; engines may start and fail in
any way.  Then

* the batch has a report, for any number of jobs: every document of the directory stands in it
  once; it is skipped if it has no companion, and otherwise what is reported of it and what
  stands in its directory are what the work on it comes to alone, with the engine that it has
  been given, and each engine has been given to one of the documents that load;
* the same holds of the report of workers that take turns with the documents, who do not go on
  for ever, whosever turn it is;
* telling a report, be it of one worker or of several, prints a line for each document that was
  worked on, and the totals, and leads to the code 0 just in case no document has failed;
* a command that gets as far as this batch tells its report, and prints nothing else;
* and a command whose code is 0 gets as far as a batch of which no document has failed. -/
theorem batch_accounts_for_documents {base : Location}
    (proper : h.files.Proper) (found : (discover directory).runOn m h = (.ok d, h₁))
    (stands : r.StandsAt h₂.files base)
    (apart : ∀ document ∈ d.documents, LiesApart h₂.files base document)
    (command : EngineCommand) (policy : Policy) :
    (∀ jobs, ∃ number report h₃,
      (processBatch command policy jobs r d).runOn m h₂ = (.ok report, h₃) ∧
        report.Accounts h.files directory ∧
        report.WorkedAlone m h₂ base command policy r d number h₃.files h₃.launches) ∧
    (∀ jobs,
      (WellFounded fun pool' pool : Pool P S σ (Except RunError TargetReport) =>
        pool.Step m (max jobs 1) pool') ∧
      ∀ pool, Pool.Reaches m (max jobs 1)
          (.start h₂ (documentActions command policy r d.documents)) pool →
        ((∃ pool', pool.Step m (max jobs 1) pool') ∨ ∃ results, pool.FinishedWith results) ∧
        ∀ results, pool.FinishedWith results →
          (BatchReport.ofResults d.skipped (d.documents.zip results)).Accounts h.files
            directory ∧
          ∃ number, BatchReport.WorkedAlone m h₂ base command policy r d number
            (.ofResults d.skipped (d.documents.zip results)) pool.shared.files
            pool.shared.launches) ∧
    (∀ root (report : BatchReport) (h : Host P S σ), ∃ status,
      (announce root report).runOn m h = (.ok status,
        { h with printed := h.printed ++ (announcement root report).map (· ++ "\n") }) ∧
      (status.code = 0 ↔ report.failed = [])) ∧
    (∀ h₀ settings overrides s,
      Batched m h₀ settings overrides directory s command d r h h₁ h₂ → s.policy = policy →
      ∀ report h₃, (processBatch command policy s.jobs r d).runOn m h₂ = (.ok report, h₃) →
        (((execute (.generate (.batch directory) settings overrides)).run m h₀).1.code = 0 ↔
          report.failed = []) ∧
        ((execute (.generate (.batch directory) settings overrides)).run m h₀).2.printed
          = h₀.printed ++ (announcement r.root report).map (· ++ "\n")) ∧
    (∀ (h₀ : Host P S σ) settings overrides,
      ((execute (.generate (.batch directory) settings overrides)).run m h₀).1.code = 0 →
      ∃ s command d r h h₁ h₂, Batched m h₀ settings overrides directory s command d r h h₁ h₂ ∧
        ∃ report h₃, (processBatch command s.policy s.jobs r d).runOn m h₂ = (.ok report, h₃) ∧
          report.failed = []) := by
  obtain ⟨named, distinct⟩ := distinct_of_discover proper found
  refine ⟨fun jobs => ?_, fun jobs => ⟨Pool.wellFounded_step m _, fun pool hreach => ⟨?_, ?_⟩⟩,
    fun root report h => ⟨_, runOn_announce root report, code_ite_eq_zero_iff⟩, ?_, ?_⟩
  · obtain ⟨number, report, h₃, ran, hworked⟩ := processBatch_workedAlone (m := m) stands
      named distinct apart command policy jobs
    exact ⟨number, report, h₃, ran, hworked.accounts proper found, hworked⟩
  · exact Pool.exists_step_or_finishedWith m (by omega) pool
  · intro results hfinished
    obtain ⟨number, hworked⟩ := Pool.workedAlone stands named distinct apart hreach hfinished
    exact ⟨hworked.accounts proper found, number, hworked⟩
  · rintro h₀ settings overrides s hb rfl report h₃ ran
    rw [hb.run_execute ran, ← hb.printed_eq ran]
    exact ⟨code_ite_eq_zero_iff, rfl⟩
  · intro h₀ settings overrides hcode
    exact exists_batched_of_success (ExitStatus.code_eq_zero_iff.mp hcode)

/-! ### Four documents, and an engine that does not start -/

/-- A tree with four documents: the second one has no companion, and the third one is empty. -/
def surveyTree : FileTree where
  entries := [((Path.ofString "bin").pieces, .directory),
    ((Path.ofString "bin/tool").pieces, .file []),
    ((Path.ofString "in").pieces, .directory),
    ((Path.ofString "in/a.xml").pieces, .file batchDocument),
    ((Path.ofString "in/a.xml.serialized").pieces, .file [1]),
    ((Path.ofString "in/b.xml").pieces, .file batchDocument),
    ((Path.ofString "in/c.xml").pieces, .file []),
    ((Path.ofString "in/c.xml.serialized").pieces, .file [3]),
    ((Path.ofString "in/d.xml").pieces, .file batchDocument),
    ((Path.ofString "in/d.xml.serialized").pieces, .file [4])]
  current := []

/-- The names in the directory with the documents. -/
def surveyNames : List Bytes :=
  ["a.xml", "a.xml.serialized", "b.xml", "c.xml", "c.xml.serialized", "d.xml",
    "d.xml.serialized"].map Utf8.encode

/-- A machine of which the first engine does not start. -/
def surveyMachine : Machine Path Nat Script :=
  { scriptMachine with launch := fun n _ =>
      (if n = 0 then .error (.engine .closed) else .ok (.new [sampleState] [] none), []) }

/-- The host with the tree at noon. -/
def surveyHost : Host Path Nat Script := .new surveyTree "noon"

/-- What is asked for. -/
def surveyOverrides : Overrides :=
  { Overrides.none with engineProgram := some "engine", outputParent := some (.ofString "/out") }

/-- The documents that are found. -/
def surveyDiscovery : Discovery :=
  ⟨[.ofString "/in/a.xml", .ofString "/in/c.xml", .ofString "/in/d.xml"], [.ofString "/in/b.xml"]⟩

/-- The host when the documents have been found. -/
def surveyFound : Host Path Nat Script :=
  { surveyHost with events := surveyDiscovery.skipped.map skipEvent
      ++ [foundEvent (.ofString "/in") surveyDiscovery] }

/-- The run directory. -/
def surveyRoot : RunDirectory := ⟨.ofString "/out/concolic-out-noon"⟩

/-- Where it stands. -/
def surveyBase : Location := (Path.ofString "out/concolic-out-noon").pieces

/-- The host when the run directory has been made. -/
def surveyBegun : Host Path Nat Script :=
  ((RunDirectory.makeIn (.ofString "/out")).runOn surveyMachine surveyFound).2

lemma survey_discover :
    (discover (.ofString "/in")).runOn surveyMachine surveyHost
      = (.ok surveyDiscovery, surveyFound) := by
  have hsorted : surveyNames.mergeSort Bytes.le = surveyNames :=
    List.mergeSort_of_pairwise (by decide +kernel)
  have hamong : surveyHost.files.discoveryAmong (.ofString "/in") surveyNames
      = surveyDiscovery := by
    rw [FileTree.discoveryAmong, FileTree.documentsAmong, hsorted]
    decide +kernel
  have hthere : surveyHost.files.isDirectory (.ofString "/in") = true := by decide +kernel
  have hlist : surveyHost.files.list (.ofString "/in") = .ok surveyNames := by decide +kernel
  have hfound := discover_runOn (m := surveyMachine) hthere hlist
  rw [hamong] at hfound
  exact hfound

lemma survey_liesApart : ∀ document ∈ surveyDiscovery.documents,
    LiesApart surveyBegun.files surveyBase document := by
  have hdeclared : declaredExecutable? batchDocument = some (.ofString "/bin/tool") := by
    decide +kernel
  have hnothing : declaredExecutable? [] = none := by decide +kernel
  simp only [surveyDiscovery, List.forall_mem_cons, List.not_mem_nil, false_imp_iff,
    implies_true, and_true]
  exact ⟨.of_read (by decide +kernel) hdeclared (by decide +kernel) (by decide +kernel)
      (by decide +kernel),
    .of_read (by decide +kernel) hnothing (by decide +kernel) (by decide +kernel) (by simp),
    .of_read (by decide +kernel) hdeclared (by decide +kernel) (by decide +kernel)
      (by decide +kernel)⟩

lemma survey_batched : Batched surveyMachine surveyHost none surveyOverrides (.ofString "/in")
    (Settings.default.override surveyOverrides) ⟨"engine", []⟩ surveyDiscovery surveyRoot
    surveyHost surveyFound surveyBegun where
  resolved := Prod.ext (by decide +kernel) rfl
  found := survey_discover
  engine := by decide +kernel
  made := Prod.ext (by decide +kernel) rfl

/-- The first document is given the engine that does not start, the third one does not load, and
for the fourth one a test case is written.  The command fails, and it tells how many documents
there were of each kind. -/
theorem batch_accounts_for_documents_sample :
    ∃ number report h₃,
      (processBatch ⟨"engine", []⟩ .singleFork 1 surveyRoot surveyDiscovery).runOn surveyMachine
        surveyBegun = (.ok report, h₃) ∧
      report.Accounts surveyTree (.ofString "/in") ∧
      report.WorkedAlone surveyMachine surveyBegun surveyBase ⟨"engine", []⟩ .singleFork
        surveyRoot surveyDiscovery number h₃.files h₃.launches ∧
      report.documentsDone = [.ofString "/in/d.xml"] ∧
      report.documentsFailed = [.ofString "/in/a.xml", .ofString "/in/c.xml"] ∧
      ((execute (.generate (.batch (.ofString "/in")) none surveyOverrides)).run surveyMachine
        surveyHost).1.code ≠ 0 := by
  obtain ⟨hone, -, -, hcommand, -⟩ := batch_accounts_for_documents (m := surveyMachine)
    (h := surveyHost) (r := surveyRoot) ⟨by decide +kernel, by decide +kernel⟩ survey_discover
    ⟨by decide +kernel, by decide +kernel⟩ survey_liesApart ⟨"engine", []⟩ .singleFork
  obtain ⟨number, report, h₃, ran, haccounts, hworked⟩ := hone 1
  have documents : ((processBatch ⟨"engine", []⟩ .singleFork 1 surveyRoot surveyDiscovery).runOn
      surveyMachine surveyBegun).1.toOption.map (fun report =>
        (report.documentsDone, report.documentsFailed))
      = some ([.ofString "/in/d.xml"], [.ofString "/in/a.xml", .ofString "/in/c.xml"]) := by
    decide +kernel
  rw [ran] at documents
  obtain ⟨hdone, hfailed⟩ := Prod.mk.inj (Option.some.inj documents)
  obtain ⟨hcode, -⟩ := hcommand surveyHost none surveyOverrides _ survey_batched rfl report h₃ ran
  refine ⟨number, report, h₃, ran, haccounts, hworked, hdone, hfailed, fun hzero => ?_⟩
  rw [BatchReport.documentsFailed, hcode.mp hzero] at hfailed
  exact absurd hfailed (by simp)

end CommandLine

end Concolic
