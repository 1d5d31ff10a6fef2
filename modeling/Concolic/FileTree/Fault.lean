/-
# What can go wrong with a file or a stream

The causes for which the system, or a stream of bytes, refuses an operation, with the wording
of the system.
-/

namespace Concolic

/-- Why an operation on a file or a stream failed. -/
inductive SystemFault where
  /-- A name on the path is not there. -/
  | notFound
  /-- The place is already taken. -/
  | alreadyExists
  /-- A name that should lead on is not a directory. -/
  | notADirectory
  /-- A directory stands where a file is wanted. -/
  | isADirectory
  /-- The other end of a pipe is gone. -/
  | brokenPipe
  /-- A name or path is longer than the system allows. -/
  | nameTooLong
  /-- The path holds a byte that no name may hold. -/
  | nulInName
  /-- What is to be copied is not a regular file. -/
  | notRegular
  /-- The path is empty down to its last directory, which is not there either. -/
  | noAncestor
  /-- What was read is no text. -/
  | notText
  /-- A buffer of fixed size is full. -/
  | bufferFull
  /-- A fault of another origin, with its wording. -/
  | other (text : String)
  deriving DecidableEq, Repr

/-- The wording of a fault. -/
def SystemFault.message : SystemFault → String
  | .notFound => "No such file or directory (os error 2)"
  | .alreadyExists => "File exists (os error 17)"
  | .notADirectory => "Not a directory (os error 20)"
  | .isADirectory => "Is a directory (os error 21)"
  | .brokenPipe => "Broken pipe (os error 32)"
  | .nameTooLong => "File name too long (os error 36)"
  | .nulInName => "file name contained an unexpected NUL byte"
  | .notRegular => "the source path is neither a regular file nor a symlink to a regular file"
  | .noAncestor => "failed to create whole tree"
  | .notText => "stream did not contain valid UTF-8"
  | .bufferFull => "failed to write whole buffer"
  | .other text => text

end Concolic
