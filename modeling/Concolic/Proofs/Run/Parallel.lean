/-
# Batches on several workers

The documents of a batch can be worked on at the same time: the work on each of them keeps to
the directory of that document, and these directories are different if the documents have
different names.  So a pool with one job for every document comes to its end with the results
and the files of the batch that is worked on by one worker, document by document, whosever turn
it was in between and however many workers there were.
-/
import Concolic.Proofs.Run.Collection
import Concolic.Proofs.Run.Pool
import Concolic.Proofs.Run.Separation

namespace Concolic

variable {P S σ : Type} {m : Machine P S σ} {h : Host P S σ} {t₀ : FileTree} {base : Location}
  {command : EngineCommand} {policy : Policy} {r : RunDirectory}

/-- The work on each of the documents, as actions of their own. -/
def documentActions (command : EngineCommand) (policy : Policy) (r : RunDirectory)
    (documents : List Path) : List (Action P S (Except RunError TargetReport)) :=
  documents.map fun document => (processOne command policy r document).run

/-- The actions with the names of the documents. -/
def namedActions (command : EngineCommand) (policy : Policy) (r : RunDirectory)
    (documents : List Path) : List (Bytes × Action P S (Except RunError TargetReport)) :=
  documents.map fun document =>
    (document.fileName?.getD [], (processOne command policy r document).run)

lemma snd_namedActions (documents : List Path) :
    (namedActions command policy r documents : List (Bytes × Action P S _)).map Prod.snd
      = documentActions command policy r documents := by
  rw [namedActions, documentActions, List.map_map]
  rfl

/-- Documents with different names are worked on in different directories. -/
lemma apart_namedActions {documents : List Path} (hr : r.StandsAt t₀ base)
    (named : ∀ document ∈ documents, document.fileName? ≠ none)
    (distinct : (documents.map Path.fileName?).Nodup)
    (apart : ∀ document ∈ documents, LiesApart t₀ base document) :
    Apart t₀ base command
      (namedActions command policy r documents : List (Bytes × Action P S _)) where
  confined := by
    intro x hx
    obtain ⟨document, hmem, rfl⟩ := List.mem_map.mp hx
    obtain ⟨name, hname⟩ := Option.ne_none_iff_exists'.mp (named document hmem)
    rw [hname]
    exact (apart document hmem).confined_processOne hr hname policy
  nodup := by
    have hnames : (namedActions command policy r documents : List (Bytes × Action P S _)).map
        Prod.fst = documents.map fun document => document.fileName?.getD [] := by
      rw [namedActions, List.map_map]
      rfl
    rw [hnames]
    refine List.Nodup.map_on ?_ (List.Nodup.of_map _ distinct)
    intro document hmem document' hmem' heq
    obtain ⟨name, hname⟩ := Option.ne_none_iff_exists'.mp (named document hmem)
    obtain ⟨name', hname'⟩ := Option.ne_none_iff_exists'.mp (named document' hmem')
    rw [hname, hname'] at heq
    refine List.inj_on_of_nodup_map distinct hmem hmem' ?_
    rw [hname, hname']
    exact congrArg some heq

/-- One worker brings the documents to what the work on each of them comes to alone. -/
lemma processEach_runOn (alike : ∀ n, m.launch n command = m.launch 0 command)
    {documents : List Path} (hg : FileTree.GrowsBelow base t₀ h.files)
    (hxs : Apart t₀ base command
      (namedActions command policy r documents : List (Bytes × Action P S _))) :
    ∃ results h', (processEach command policy r documents).runOn m h
        = (.ok (documents.zip results), h') ∧
      ComeTo m h base (namedActions command policy r documents) results h'.files := by
  induction documents generalizing h with
  | nil => exact ⟨[], h, rfl, rfl, rfl, by simp [namedActions], fun _ _ => rfl⟩
  | cons document documents ih =>
    have hg' := ((hxs.confined _ List.mem_cons_self).run_frame hg (m := m)).1
    obtain ⟨results, h', hrun, hc⟩ := ih hg' hxs.of_cons
    refine ⟨_ :: results, h', ?_, hc.cons alike hxs hg⟩
    rw [processEach, Work.runOn_bind, Work.runOn_lift]
    simp only
    rw [Work.runOn_bind, hrun]
    rfl

/-- The batch ends with the report on the results; reporting touches no files and starts no
engine. -/
lemma processBatch_one_runOn {d : Discovery} {h' : Host P S σ}
    {results : List (Path × Except RunError TargetReport)}
    (heach : (processEach command policy r d.documents).runOn m h = (.ok results, h')) :
    ∃ h'', (processBatch command policy 1 r d).runOn m h
        = (.ok (BatchReport.ofResults d.skipped results), h'') ∧ h''.files = h'.files ∧
      h''.launches = h'.launches := by
  unfold processBatch
  rw [if_neg (by decide), Work.runOn_bind, heach]
  simp only
  rw [Work.runOn_bind, Work.runOn_forM_tell]
  exact ⟨_, rfl, rfl, rfl⟩

/-- **Whosever turn it is, the batch on several workers ends like the batch on one.**

The run directory stands at `base`; the documents have names, which are different; no document,
companion or executable lies below the run directory; and every engine is started alike.  Then
the batch on one worker has a report.  Workers that take turns with the documents do not go on
for ever, and as long as they have not ended they can go on; when they have ended, the report
on their results is that of the one worker, and the same files are there. -/
theorem processBatch_on_workers {d : Discovery}
    (alike : ∀ n, m.launch n command = m.launch 0 command)
    (stands : r.StandsAt h.files base)
    (named : ∀ document ∈ d.documents, document.fileName? ≠ none)
    (distinct : (d.documents.map Path.fileName?).Nodup)
    (apart : ∀ document ∈ d.documents, LiesApart h.files base document) :
    ∃ report h', (processBatch command policy 1 r d).runOn m h = (.ok report, h') ∧
      ∀ jobs : Nat,
        (WellFounded fun pool' pool : Pool P S σ (Except RunError TargetReport) =>
          pool.Step m (max jobs 1) pool') ∧
        ∀ pool, Pool.Reaches m (max jobs 1)
            (.start h (documentActions command policy r d.documents)) pool →
          ((∃ pool', pool.Step m (max jobs 1) pool') ∨ ∃ results, pool.FinishedWith results) ∧
          ∀ results, pool.FinishedWith results →
            BatchReport.ofResults d.skipped (d.documents.zip results) = report ∧
              pool.shared.files.Same h'.files := by
  have hg := FileTree.GrowsBelow.refl base h.files
  have hxs : Apart h.files base command
      (namedActions command policy r d.documents : List (Bytes × Action P S _)) :=
    apart_namedActions stands named distinct apart
  obtain ⟨results, h₁, heach, hc⟩ := processEach_runOn alike hg hxs
  obtain ⟨h', hbatch, hfiles, -⟩ := processBatch_one_runOn heach
  refine ⟨_, h', hbatch, fun jobs => ⟨Pool.wellFounded_step m _, fun pool hreach => ⟨?_, ?_⟩⟩⟩
  · exact Pool.exists_step_or_finishedWith m (by omega) pool
  · intro results' hfinished
    rw [← snd_namedActions] at hreach
    have hcourse := (Pool.onCourse_start alike hxs hg).of_reaches alike hxs hreach
    obtain ⟨rfl, hsame⟩ := hc.unique (hcourse.comeTo hg hfinished)
    rw [hfiles]
    exact ⟨rfl, hsame⟩

/-! ### Two documents on two workers -/

/-- A document that declares a program with one argument that is to be found. -/
def batchDocument : Bytes := Utf8.encode
  "<c><exec><![CDATA[/bin/tool]]></exec><arg index=\"1\" size=\"4\" concolic=\"true\"/></c>"

/-- A tree with two documents, the second of which is empty, and an empty run directory. -/
def batchTree : FileTree where
  entries := [((Path.ofString "bin").pieces, .directory),
    ((Path.ofString "bin/tool").pieces, .file []),
    ((Path.ofString "in").pieces, .directory),
    ((Path.ofString "in/a.xml").pieces, .file batchDocument),
    ((Path.ofString "in/a.xml.serialized").pieces, .file [1]),
    ((Path.ofString "in/b.xml").pieces, .file []),
    ((Path.ofString "in/b.xml.serialized").pieces, .file [2]),
    ((Path.ofString "out").pieces, .directory)]
  current := []

/-- The host with this tree. -/
def batchHost : Host Path Nat Script := .new batchTree ""

/-- A machine whose engines all play the same script. -/
def batchMachine : Machine Path Nat Script :=
  { scriptMachine with launch := fun _ _ => (.ok (.new [sampleState] [] none), []) }

/-- The two documents. -/
def batchDiscovery : Discovery := ⟨[.ofString "/in/a.xml", .ofString "/in/b.xml"], []⟩

lemma batch_liesApart : ∀ document ∈ batchDiscovery.documents,
    LiesApart batchTree (Path.ofString "out").pieces document := by
  have hdeclared : declaredExecutable? batchDocument = some (.ofString "/bin/tool") := by
    decide +kernel
  have hnothing : declaredExecutable? [] = none := by decide +kernel
  simp only [batchDiscovery, List.forall_mem_cons, List.not_mem_nil, false_imp_iff,
    implies_true, and_true]
  exact ⟨.of_read (by decide +kernel) hdeclared (by decide +kernel) (by decide +kernel)
      (by decide +kernel),
    .of_read (by decide +kernel) hnothing (by decide +kernel) (by decide +kernel) (by simp)⟩

/-- Of the first document a test case is written, and the second one fails, in whatever order
the two workers take turns. -/
theorem processBatch_on_workers_sample :
    ∃ (report : BatchReport) (h' : Host Path Nat Script),
      (processBatch ⟨"", []⟩ .singleFork 1 ⟨.ofString "/out"⟩ batchDiscovery).runOn batchMachine
        batchHost = (.ok report, h') ∧
      report.testCasesWritten = 1 ∧ report.failed.length = 1 ∧
      ∀ (pool : Pool Path Nat Script (Except RunError TargetReport)) results,
        Pool.Reaches batchMachine 2 (.start batchHost (documentActions ⟨"", []⟩ .singleFork
          ⟨.ofString "/out"⟩ batchDiscovery.documents)) pool →
        pool.FinishedWith results →
          BatchReport.ofResults [] (batchDiscovery.documents.zip results) = report ∧
            pool.shared.files.Same h'.files := by
  have ran : ((processBatch ⟨"", []⟩ .singleFork 1 ⟨.ofString "/out"⟩ batchDiscovery).runOn
      batchMachine batchHost).1.toOption.map (fun report =>
        (report.testCasesWritten, report.failed.length)) = some (1, 1) := by
    decide +kernel
  obtain ⟨report, h', hrun, hpools⟩ := processBatch_on_workers (m := batchMachine)
    (h := batchHost) (r := ⟨.ofString "/out"⟩) (d := batchDiscovery) (fun _ => rfl)
    ⟨by decide +kernel, by decide +kernel⟩ (by decide +kernel) (by decide +kernel)
    batch_liesApart
  rw [hrun] at ran
  obtain ⟨hwritten, hfailed⟩ := Prod.mk.inj (Option.some.inj ran)
  exact ⟨report, h', hrun, hwritten, hfailed,
    fun pool results hreach hfinished => ((hpools 2).2 pool hreach).2 results hfinished⟩

end Concolic
