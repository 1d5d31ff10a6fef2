/-
# Output directories

The output of a run lies in a directory named for the time of the run.  Under it every
document has a directory of its own, named like the document:

* `guest-data` holds a copy of the file that accompanies the document,
* `test-case-parsed` holds the test cases, numbered from one.
-/
import Concolic.Run.Action

namespace Concolic

/-- The beginning of the name of a run directory. -/
def runDirectoryStem : String := "concolic-out-"

/-- The ending that tells the companion of a document. -/
def companionSuffix : String := ".serialized"

/-- The path of the file that accompanies a document. -/
def companion (document : Path) : Path := document.withSuffix companionSuffix

/-- The directory of a run. -/
structure RunDirectory where
  /-- Its path. -/
  root : Path
  deriving DecidableEq, Repr

namespace RunDirectory

/-- The directory of a document, which has a name of its own if the document has none. -/
def targetDirectory (r : RunDirectory) (document : Path) : Path :=
  match document.fileName? with
  | some name => r.root.child name
  | none => r.root.join (Path.ofString "target")

end RunDirectory

/-- The directories of one document. -/
structure Layout where
  /-- The directory of the document. -/
  directory : Path
  /-- The directory of its test cases. -/
  testCases : Path
  /-- Has the companion been copied? -/
  companionCopied : Bool
  deriving DecidableEq, Repr

namespace Layout

/-- The directory of the copied companion under that of a document. -/
def guestData (directory : Path) : Path := directory.join (Path.ofString "guest-data")

/-- The path of the copied companion under the directory of a document. -/
def companionCopy (directory : Path) : Path :=
  (guestData directory).join (Path.ofString "crete-guest-config.serialized")

/-- The directory of the test cases under that of a document. -/
def testCaseDirectory (directory : Path) : Path :=
  directory.join (Path.ofString "test-case-parsed")

/-- The path of the test case with a number. -/
def testCasePath (l : Layout) (number : Nat) : Path :=
  l.testCases.join (Path.ofString s!"{number}.bin")

end Layout

variable {P S : Type}

/-- An event about output directories. -/
def layoutEvent (level : Log.Level) (message : String) : Log.Event := ⟨level, .layout, message⟩

/-- Makes a run directory. -/
def RunDirectory.make (root : Path) : Work P S RunDirectory := do
  Work.orFailAt root (← Work.makeDirectories root)
  Work.tell (layoutEvent .info s!"Output directory: {root.display}")
  pure ⟨root⟩

/-- Makes a run directory named for the present time. -/
def RunDirectory.makeIn (parent : Path) : Work P S RunDirectory := do
  let stamp ← Work.stamp
  RunDirectory.make (parent.join (Path.ofString (runDirectoryStem ++ stamp)))

/-- How a message says that a document has no companion. -/
def noCompanion (document : Path) : String :=
  s!"'{document.display}' does not have a corresponding '{companionSuffix}' file"

/-- Makes the directories of a document and copies its companion, if there is one. -/
def Layout.prepare (r : RunDirectory) (document : Path) : Work P S Layout := do
  let directory := r.targetDirectory document
  let testCases := testCaseDirectory directory
  Work.orFailAt (guestData directory) (← Work.makeDirectories (guestData directory))
  Work.orFailAt testCases (← Work.makeDirectories testCases)
  if ← Work.isFile (companion document) then do
    let copy := companionCopy directory
    Work.orFailAt copy (← Work.copyFile (companion document) copy)
    pure ⟨directory, testCases, true⟩
  else do
    Work.tell (layoutEvent .warn (noCompanion document))
    pure ⟨directory, testCases, false⟩

end Concolic
