/-
# Work prints nothing

The work on documents has files, engines and events to deal with, but it prints nothing, and
neither does the search for documents.  So what a command prints is what it prints itself, of the
report that it is given in the end.
-/
import Concolic.Proofs.Run.Discovery
import Concolic.Proofs.Run.Launches

namespace Concolic

variable {P S σ α : Type} {m : Machine P S σ} {h h' : Host P S σ} {command : EngineCommand}
  {policy : Policy} {r : RunDirectory}

namespace Operation

/-- The operation prints nothing. -/
def PrintsNone : Operation P S → Prop
  | .print _ => False
  | _ => True

lemma IsPlain.printsNone {op : Operation P S} (hop : op.IsPlain) : op.PrintsNone := by
  cases op with
  | print text => exact hop.elim
  | file | launch | ask | close | tell | stamp => trivial

lemma Reads.printsNone {op : Operation P S} (hop : op.Reads) : op.PrintsNone := by
  cases op with
  | print text => exact hop.elim
  | file | launch | ask | close | tell | stamp => trivial

lemma PrintsNone.printed_perform {op : Operation P S} (hop : op.PrintsNone) :
    (h.perform m op).2.printed = h.printed := by
  cases op with
  | print text => exact hop.elim
  | launch command =>
    rcases hl : m.launch h.launches command with ⟨_ | _, _⟩ <;> simp [Host.perform, hl]
  | ask call => rcases hs : h.session with _ | s <;> simp [Host.perform, hs]
  | close => rcases hs : h.session with _ | s <;> simp [Host.perform, hs]
  | file | tell | stamp => rfl

end Operation

/-- What is printed after silent work is what was printed before it. -/
lemma Work.Uses.printed_of_runOn {w : Work P S α} {result : Except RunError α}
    (hw : w.Uses Operation.PrintsNone) (hr : w.runOn m h = (result, h')) :
    h'.printed = h.printed := by
  have hkeeps : w.Keeps (σ := σ) Host.printed := fun _ _ =>
    Action.Uses.run_keeps hw Host.printed fun _ _ => Operation.PrintsNone.printed_perform
  exact hkeeps.of_runOn hr

/-! ## The work on documents -/

lemma uses_printsNone_processOne (document : Path) :
    (processOne command policy r document : Work P S TargetReport).Uses
      Operation.PrintsNone := by
  have hload := (uses_reads_loadConfiguration (P := P) (S := S) document).mono
    fun _ => Operation.Reads.printsNone
  have hprocess : ∀ c, (process policy r document c : Work P S TargetReport).Uses
      Operation.PrintsNone :=
    fun c => (uses_isPlain_process c).mono fun _ => Operation.IsPlain.printsNone
  exact (Work.uses_tell trivial).bind fun _ => hload.bind fun c =>
    Work.uses_withEngine (hprocess c) trivial trivial

lemma uses_printsNone_processEach (documents : List Path) :
    (processEach command policy r documents : Work P S _).Uses Operation.PrintsNone := by
  induction documents with
  | nil => exact Work.uses_pure _
  | cons document documents ih =>
    exact Work.Uses.bind (Work.uses_lift (uses_printsNone_processOne document)) fun _ =>
      Work.Uses.bind ih fun _ => Work.uses_pure _

/-- A batch prints nothing. -/
lemma uses_printsNone_processBatch (jobs : Nat) (d : Discovery) :
    (processBatch command policy jobs r d : Work P S BatchReport).Uses
      Operation.PrintsNone := by
  have hwork : (do
      let results ← processEach command policy r d.documents
      let report := BatchReport.ofResults d.skipped results
      report.failed.forM fun x =>
        Work.tell (batchEvent .error s!"{x.1.display}: {x.2.message}")
      pure report : Work P S BatchReport).Uses Operation.PrintsNone :=
    (uses_printsNone_processEach d.documents).bind fun _ =>
      (Work.uses_forM fun _ => Work.uses_tell trivial).bind fun _ => Work.uses_pure _
  unfold processBatch
  split
  · exact (Work.uses_tell trivial).bind fun _ => hwork
  · exact hwork

/-- Making a run directory prints nothing. -/
lemma uses_printsNone_makeIn (parent : Path) :
    (RunDirectory.makeIn parent : Work P S RunDirectory).Uses Operation.PrintsNone := by
  have hstamp : (Work.stamp : Work P S String).Uses Operation.PrintsNone :=
    ⟨trivial, fun _ => trivial⟩
  exact hstamp.bind fun _ => (Work.uses_file trivial).bind fun _ =>
    (Work.uses_orFail _ _).bind fun _ => (Work.uses_tell trivial).bind fun _ => Work.uses_pure _

/-- Finding documents prints nothing. -/
lemma printed_of_discover {directory : Path} {d : Discovery}
    (found : (discover directory).runOn m h = (.ok d, h')) : h'.printed = h.printed := by
  obtain ⟨names, -, -, heq⟩ := discover_runOn_eq_ok found
  rw [heq]

end Concolic
