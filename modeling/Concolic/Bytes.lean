/-
# Byte strings

Test cases, file contents and path names are strings of bytes.  A byte string is kept as a
list, so that what is written, cut and joined can be followed byte by byte.
-/

namespace Concolic

/-- A string of bytes. -/
abbrev Bytes := List UInt8

namespace Bytes

/-- The order of names in a directory: byte by byte, a proper prefix first. -/
def le : Bytes → Bytes → Bool
  | [], _ => true
  | _ :: _, [] => false
  | a :: as, b :: bs => a < b || (a == b && le as bs)

/-- The pieces between the separators; there is always one more piece than there are
separators. -/
def splitOn (separator : UInt8) : Bytes → List Bytes
  | [] => [[]]
  | b :: bs =>
    if b = separator then [] :: splitOn separator bs
    else match splitOn separator bs with
      | [] => [[b]]
      | piece :: pieces => (b :: piece) :: pieces

/-- The bytes over `position`, replaced by `new`; a position past the end is reached with
zero bytes. -/
def splice (old : Bytes) (position : Nat) (new : Bytes) : Bytes :=
  old.take position ++ List.replicate (position - old.length) 0 ++ new
    ++ old.drop (position + new.length)

/-- Cut or padded with zero bytes to exactly `width` bytes. -/
def toWidth (value : Bytes) (width : Nat) : Bytes :=
  value.take width ++ List.replicate (width - value.length) 0

end Bytes

end Concolic
