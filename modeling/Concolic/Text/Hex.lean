/-
# Hexadecimal text of bytes

Byte strings travel as pairs of hexadecimal digits: written in lower case, read in either
case.  The text to be read is counted in bytes, so a character outside ASCII is seen as the
bytes that encode it.
-/
import Concolic.Text.Utf8
import Concolic.Text.Quoted

namespace Concolic.Hex

/-- The digit of a value below sixteen. -/
def digit (n : Nat) : Char :=
  if n < 10 then Char.ofNat (48 + n) else Char.ofNat (87 + n)

/-- The two digits of a byte. -/
def byteDigits (b : UInt8) : List Char := [digit (b.toNat / 16), digit (b.toNat % 16)]

/-- The digits of a byte string. -/
def encode (b : Bytes) : String := String.ofList (b.flatMap byteDigits)

/-- The value of a digit. -/
def digitValue? (b : UInt8) : Option Nat :=
  if 48 ≤ b && b ≤ 57 then some (b.toNat - 48)
  else if 97 ≤ b && b ≤ 102 then some (b.toNat - 87)
  else if 65 ≤ b && b ≤ 70 then some (b.toNat - 55)
  else none

/-- Why a text is no sequence of digit pairs. -/
inductive Error where
  /-- The text has an odd number of bytes. -/
  | oddLength
  /-- This byte, at this position, is no digit. -/
  | badDigit (byte : UInt8) (position : Nat)
  deriving Repr, DecidableEq

/-- The wording of an error; the byte is shown as the character of its number. -/
def Error.message : Error → String
  | .oddLength => "Odd number of digits"
  | .badDigit byte position =>
    s!"Invalid character {Text.quotedCharacter (Char.ofNat byte.toNat)} at position {position}"

/-- The bytes of a sequence of digits that starts at `position`. -/
def decodeFrom (position : Nat) : Bytes → Except Error Bytes
  | [] => .ok []
  | [_] => .error .oddLength
  | high :: low :: rest =>
    match digitValue? high, digitValue? low with
    | none, _ => .error (.badDigit high position)
    | some _, none => .error (.badDigit low (position + 1))
    | some h, some l =>
      match decodeFrom (position + 2) rest with
      | .ok bytes => .ok (UInt8.ofNat (h * 16 + l) :: bytes)
      | .error e => .error e

/-- The bytes that a text of digit pairs stands for; the length is looked at first. -/
def decode (s : String) : Except Error Bytes :=
  let digits := Utf8.encode s
  if digits.length % 2 = 1 then .error .oddLength else decodeFrom 0 digits

end Concolic.Hex
