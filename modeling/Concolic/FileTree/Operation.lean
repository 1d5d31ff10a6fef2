/-
# Operations on files

The operations that a program can ask for, with what they are answered.  Each is one step:
what other programs do at the same time happens before it or after it.
-/
import Concolic.FileTree.Basic

namespace Concolic

/-- An operation on a tree of files. -/
inductive FileOperation where
  /-- Is there a regular file? -/
  | isFile (path : Path)
  /-- Is there a directory? -/
  | isDirectory (path : Path)
  /-- The content of a file. -/
  | read (path : Path)
  /-- The names in a directory. -/
  | list (path : Path)
  /-- Make a directory and those above it. -/
  | makeDirectories (path : Path)
  /-- Make a file or empty it. -/
  | create (path : Path)
  /-- Put a content into a file that is there. -/
  | write (path : Path) (content : Bytes)
  /-- Copy a file. -/
  | copy (source target : Path)
  deriving DecidableEq, Repr

namespace FileOperation

/-- What an operation is answered with. -/
def Answer : FileOperation → Type
  | .isFile _ => Bool
  | .isDirectory _ => Bool
  | .read _ => Except SystemFault Bytes
  | .list _ => Except SystemFault (List Bytes)
  | .makeDirectories _ => Except SystemFault Unit
  | .create _ => Except SystemFault Unit
  | .write .. => Except SystemFault Unit
  | .copy .. => Except SystemFault Unit

/-- The outcome of an operation that leaves a tree as it is if it fails. -/
def changed (t : FileTree) : Except SystemFault FileTree → Except SystemFault Unit × FileTree
  | .ok t' => (.ok (), t')
  | .error e => (.error e, t)

/-- What an operation does to a tree. -/
def run (t : FileTree) : (op : FileOperation) → op.Answer × FileTree
  | .isFile path => (t.isFile path, t)
  | .isDirectory path => (t.isDirectory path, t)
  | .read path => (t.read path, t)
  | .list path => (t.list path, t)
  | .makeDirectories path => t.makeDirectories path
  | .create path => changed t ((t.create path).map Prod.snd)
  | .write path content => changed t (t.write path content)
  | .copy source target => changed t (t.copy source target)

end FileOperation

end Concolic
