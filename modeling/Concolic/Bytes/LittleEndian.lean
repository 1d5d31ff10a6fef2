/-
# Numbers as bytes

A number below `256 ^ w` is written as `w` bytes, the least significant first.  As a signed
number its upper half stands for the negative ones.
-/
import Concolic.Bytes

namespace Concolic.Bytes

/-- The `width` bytes of a number, the least significant first. -/
def ofNat : Nat → Nat → Bytes
  | 0, _ => []
  | width + 1, n => UInt8.ofNat (n % 256) :: ofNat width (n / 256)

/-- The number with the given bytes. -/
def toNat : Bytes → Nat
  | [] => 0
  | b :: bs => b.toNat + 256 * toNat bs

/-- The signed number with the given bytes: its residue in the range around zero. -/
def toInt (b : Bytes) : Int := (toNat b : Int).bmod (Nat.pow 256 b.length)

@[simp] theorem length_ofNat (width n : Nat) : (ofNat width n).length = width := by
  induction width generalizing n with
  | zero => rfl
  | succ width ih => simp only [ofNat, List.length_cons, ih]

end Concolic.Bytes
