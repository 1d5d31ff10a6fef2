/-
# Paths

A path is a byte string that names a place in a tree of files, piece by piece, the pieces
being separated by slashes.  Empty pieces and pieces `.` stand for nothing; `..` is no name.
-/
import Concolic.Text.Utf8

namespace Concolic

/-- A path as it is written. -/
structure Path where
  /-- The bytes of the path. -/
  bytes : Bytes
  deriving DecidableEq, Repr

namespace Path

/-- The separator of pieces. -/
def slash : UInt8 := 47

/-- The piece `.`. -/
def here : Bytes := [46]

/-- The piece `..`. -/
def up : Bytes := [46, 46]

/-- The path that a text spells. -/
def ofString (s : String) : Path := ⟨Utf8.encode s⟩

/-- The path as a message shows it. -/
def display (p : Path) : String := Utf8.lossy p.bytes

/-- Does the path start at the root of the tree? -/
def isAbsolute (p : Path) : Bool := p.bytes.head? == some slash

/-- The pieces between the slashes, empty ones included. -/
def pieces (p : Path) : List Bytes := p.bytes.splitOn slash

/-- The pieces that stand for something. -/
def names (p : Path) : List Bytes := p.pieces.filter fun x => x ≠ [] && x ≠ here

/-- The base name: the last piece that stands for something, unless it is `..`. -/
def fileName? (p : Path) : Option Bytes :=
  match p.names.getLast? with
  | some name => if name = up then none else some name
  | none => none

/-- The extension of a name: what follows its last dot, if something precedes that dot. -/
def extensionOf (name : Bytes) : Option Bytes :=
  let tail := (name.reverse.takeWhile (· ≠ 46)).reverse
  if tail.length + 1 < name.length then some tail else none

/-- The extension of the base name. -/
def extension? (p : Path) : Option Bytes := p.fileName?.bind extensionOf

/-- The path that leads first to `p` and from there to `q`. -/
def join (p q : Path) : Path :=
  if q.isAbsolute then q
  else if p.bytes.isEmpty || p.bytes.getLast? == some slash then ⟨p.bytes ++ q.bytes⟩
  else ⟨p.bytes ++ slash :: q.bytes⟩

/-- The path to the entry `name` of the directory at `p`. -/
def child (p : Path) (name : Bytes) : Path := p.join ⟨name⟩

/-- The path with a suffix written behind it. -/
def withSuffix (p : Path) (suffix : String) : Path := ⟨p.bytes ++ Utf8.encode suffix⟩

/-- The pieces that name a directory above something: a leading `.` counts as one. -/
def components (p : Path) : List Bytes :=
  if !p.isAbsolute && p.pieces.head? == some here then here :: p.names else p.names

/-- A path with the given components. -/
def ofComponents (absolute : Bool) (components : List Bytes) : Path :=
  let body := List.intercalate [slash] components
  ⟨if absolute then slash :: body else body⟩

/-- The paths above a path, the nearest first. -/
def ancestors (p : Path) : List Path :=
  let parts := p.components
  (List.range parts.length).reverse.map fun n => ofComponents p.isAbsolute (parts.take n)

end Path

end Concolic
