/-
# Harvests

The work on one document: its configuration is loaded and bound, the engine explores, the
outcome of every state is collected, and each outcome is written as a test case.  Nothing is
written before all outcomes have been collected.  A state whose outcome is unresolved is
skipped.
-/
import Concolic.Configuration.Document
import Concolic.Record.Writer
import Concolic.Run.Layout
import Concolic.Run.Outcome

namespace Concolic

/-- The outcomes of an exploration. -/
structure Harvest where
  /-- The outcomes, in the order of the states. -/
  outcomes : List Outcome
  /-- The number of states without an outcome. -/
  skipped : Nat
  deriving DecidableEq, Repr

/-- What has been done for a document. -/
structure TargetReport where
  /-- The document. -/
  document : Path
  /-- The directory of its output. -/
  outputDirectory : Path
  /-- The test cases that were written. -/
  testCases : List Path
  /-- The number of states that were skipped. -/
  skipped : Nat
  /-- Has the companion been copied? -/
  companionCopied : Bool
  deriving DecidableEq, Repr

variable {P S : Type}

/-- An event about the work on a document. -/
def harvestEvent (level : Log.Level) (message : String) : Log.Event := ⟨level, .harvest, message⟩

/-- Loads the configuration that a document declares. -/
def loadConfiguration (document : Path) : Work P S Configuration := do
  if ← Work.isFile document then do
    let bytes ← Work.orFail (fun fault => .configuration (.unreadable document fault))
      (← Work.readFile document)
    let text ← Work.orFail (fun fault => .configuration (.unreadable document fault)) (textOf bytes)
    Work.tell (Configuration.detail s!"Loading configuration from {document.display}")
    let root ← Work.orFail .configuration (Configuration.treeOf text)
    let executable ← Work.orFail .configuration (Configuration.executableOf root)
    let found ← Work.isFile executable
    Work.traced .configuration (Configuration.ofTree (fun _ => found) root)
  else Work.orFail .configuration (.error (.notFound .document document))
where
  /-- The text that the bytes spell. -/
  textOf (bytes : Bytes) : Except SystemFault String :=
    match Utf8.decode? bytes with
    | some text => .ok text
    | none => .error .notText

/-- Collects the outcomes of states. -/
def collectAll (c : Configuration) (b : BoundInputs) : List S → Work P S Harvest
  | [] => pure ⟨[], 0⟩
  | state :: rest => do
    match ← collect state c b with
    | .ok outcome => do
      let h ← collectAll c b rest
      pure { h with outcomes := outcome :: h.outcomes }
    | .error (.unresolved name cause) => do
      Work.tell (harvestEvent .warn
        s!"Skipping outcome: {(CollectError.unresolved name cause).message}")
      let h ← collectAll c b rest
      pure { h with skipped := h.skipped + 1 }
    | .error (.engine cause) => Work.orFail .engine (.error cause)

/-- Explores a target and collects the outcomes. -/
def harvest (policy : Policy) (c : Configuration) : Work P S Harvest := do
  let b ← Work.traced .binding c.bind
  let project ← Work.demand (.load c.executable)
  let entry ← Work.demand (.entryState project b.arguments b.fileTable)
  Work.tell (harvestEvent .info s!"Exploring under {policy.display} policy")
  let found : Exploration S ← Work.demand (.explore entry policy)
  let ended := found.terminated.length
  let running := found.runnable.length
  Work.tell (harvestEvent .info
    s!"Exploration finished: {ended} terminated, {running} runnable")
  collectAll c b found.states

/-- Writes the test case of an outcome and tells the number of its elements.  If the test case
cannot be recorded, the part before the fault is left in the file. -/
def writeTestCase (path : Path) (o : Outcome) : Work P S Nat := do
  Work.orFailAt path (← Work.createFile path)
  let (result, medium) := o.testCase.writeTo .empty
  Work.orFail (fun fault => .record (.stream fault)) (← Work.writeFile path medium.content)
  Work.orFail .record result
  let count := o.testCase.size
  Work.tell ⟨.debug, .encoder, s!"Wrote {path.display} ({count} elements)"⟩
  pure count

/-- Writes the test cases of outcomes, the first one under the given number. -/
def writeTestCases (l : Layout) (number : Nat) : List Outcome → Work P S (List Path)
  | [] => pure []
  | o :: rest => do
    let path := l.testCasePath number
    let _ ← writeTestCase path o
    let paths ← writeTestCases l (number + 1) rest
    pure (path :: paths)

/-- Explores a target and writes its test cases. -/
def process (policy : Policy) (r : RunDirectory) (document : Path) (c : Configuration) :
    Work P S TargetReport := do
  let h ← harvest policy c
  let l ← Layout.prepare r document
  let testCases ← writeTestCases l 1 h.outcomes
  let written := testCases.length
  Work.tell (harvestEvent .info
    s!"{document.display}: {written} test case(s) written, {h.skipped} skipped")
  pure ⟨document, l.directory, testCases, h.skipped, l.companionCopied⟩

/-- Loads the configuration of a document, explores its target and writes the test cases. -/
def processDocument (policy : Policy) (r : RunDirectory) (document : Path) :
    Work P S TargetReport := do
  let c ← loadConfiguration document
  process policy r document c

end Concolic
