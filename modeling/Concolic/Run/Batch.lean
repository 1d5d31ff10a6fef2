/-
# Batches

A batch is the work on all documents of a directory that have a companion.  Every document has
an engine of its own, and what goes wrong with one does not concern the others.
-/
import Concolic.Run.Harvest

namespace Concolic

/-- The documents of a directory. -/
structure Discovery where
  /-- Those with a companion, in the order of their names. -/
  documents : List Path
  /-- Those without, in the order of their names. -/
  skipped : List Path
  deriving DecidableEq, Repr

/-- What has been done in a batch. -/
structure BatchReport where
  /-- What has been done for the documents, in their order. -/
  succeeded : List TargetReport
  /-- The documents that failed, in their order, and why. -/
  failed : List (Path × RunError)
  /-- The documents without a companion. -/
  skipped : List Path
  deriving Repr

namespace BatchReport

/-- Has no document failed? -/
def allSucceeded (r : BatchReport) : Bool := r.failed.isEmpty

/-- The number of test cases that were written. -/
def testCasesWritten (r : BatchReport) : Nat :=
  r.succeeded.foldl (fun n t => n + t.testCases.length) 0

end BatchReport

variable {P S : Type}

/-- An event about a batch. -/
def batchEvent (level : Log.Level) (message : String) : Log.Event := ⟨level, .batch, message⟩

/-- The paths that lead to regular files. -/
def regularFiles : List Path → Work P S (List Path)
  | [] => pure []
  | path :: rest => do
    let here ← Work.isFile path
    let others ← regularFiles rest
    pure (if here then path :: others else others)

/-- Is it the name of a document? -/
def isDocumentName (path : Path) : Bool := path.extension? == some (Utf8.encode "xml")

/-- Sorts documents by whether they have a companion. -/
def sortOut : List Path → Work P S Discovery
  | [] => pure ⟨[], []⟩
  | document :: rest => do
    if ← Work.isFile (companion document) then do
      let d ← sortOut rest
      pure { d with documents := document :: d.documents }
    else do
      Work.tell (batchEvent .warn s!"{noCompanion document}, skipping")
      let d ← sortOut rest
      pure { d with skipped := document :: d.skipped }

/-- Finds the documents of a directory. -/
def discover (directory : Path) : Work P S Discovery := do
  if ← Work.isDirectory directory then do
    let names ← Work.orFailAt directory (← Work.listDirectory directory)
    let paths := ((names.mergeSort Bytes.le).map directory.child).filter isDocumentName
    let d ← sortOut (← regularFiles paths)
    let found := d.documents.length
    let without := d.skipped.length
    Work.tell (batchEvent .info
      s!"Found {found} document(s) in {directory.display}, {without} skipped")
    pure d
  else Work.orFail .input (.error (.notADirectory directory))

/-- The work on one document of a batch, with an engine of its own. -/
def processOne (command : EngineCommand) (policy : Policy) (r : RunDirectory) (document : Path) :
    Work P S TargetReport := do
  Work.tell (batchEvent .info s!"Processing {document.display}")
  let c ← loadConfiguration document
  Work.withEngine command (process policy r document c)

/-- The work on the documents of a batch, one after the other; every document has its result. -/
def processEach (command : EngineCommand) (policy : Policy) (r : RunDirectory) :
    List Path → Work P S (List (Path × Except RunError TargetReport))
  | [] => pure []
  | document :: rest => do
    let result ← ExceptT.lift (processOne command policy r document).run
    let results ← processEach command policy r rest
    pure ((document, result) :: results)

/-- The report on the results of a batch. -/
def BatchReport.ofResults (skipped : List Path)
    (results : List (Path × Except RunError TargetReport)) : BatchReport where
  succeeded := results.filterMap fun x => x.2.toOption
  failed := results.filterMap fun x =>
    match x.2 with
    | .ok _ => none
    | .error e => some (x.1, e)
  skipped := skipped

/-- The work on the documents that were found.  With more than one job this is the work of one
worker, who takes the documents in order, and an event that tells the number of jobs.  What several
workers do who share the documents is told in `Concolic.Proofs.Run.Pool`, and that it comes to the
same in `Concolic.Proofs.Run.Parallel`. -/
def processBatch (command : EngineCommand) (policy : Policy) (jobs : Nat) (r : RunDirectory)
    (d : Discovery) : Work P S BatchReport := do
  if 1 < jobs then Work.tell (batchEvent .debug s!"Processing batch on {jobs} threads")
  let results ← processEach command policy r d.documents
  let report := BatchReport.ofResults d.skipped results
  report.failed.forM fun x =>
    Work.tell (batchEvent .error s!"{x.1.display}: {x.2.message}")
  pure report

end Concolic
