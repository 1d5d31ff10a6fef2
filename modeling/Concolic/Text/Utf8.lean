/-
# UTF-8

Texts are stored as UTF-8.  Bytes that are no text are treated in two ways: a reader that
needs a text names the place of the first fault, and a message shows the text with a
replacement character in the place of each fault.

A fault is a maximal run of bytes that begins a character and cannot go on: one to three
bytes followed by a byte that does not fit, or by the end of the input.
-/
import Concolic.Bytes

namespace Concolic.Utf8

/-- The bytes of a text. -/
def encode (s : String) : Bytes := s.toByteArray.data.toList

/-- The text that the bytes spell, if they spell one. -/
def decode? (b : Bytes) : Option String := String.fromUTF8? ⟨b.toArray⟩

/-- What stands at the head of a non-empty byte string. -/
inductive Head where
  /-- A character, with this many bytes after its first one. -/
  | char (more : Nat)
  /-- A fault, with this many bytes after its first one, before a byte that does not fit. -/
  | invalid (more : Nat)
  /-- The beginning of a character, cut short by the end of the input. -/
  | cut

/-- Any byte after the second one of a character. -/
def isTail (b : UInt8) : Bool := 0x80 ≤ b && b ≤ 0xbf

/-- The range that the second byte of a character keeps to, and the number of bytes after the
first; narrower ranges shut out overlong forms, surrogates and numbers past the last code
point. -/
def leadRange (lead : UInt8) : Option (Nat × UInt8 × UInt8) :=
  if 0xc2 ≤ lead && lead ≤ 0xdf then some (1, 0x80, 0xbf)
  else if lead = 0xe0 then some (2, 0xa0, 0xbf)
  else if lead = 0xed then some (2, 0x80, 0x9f)
  else if 0xe1 ≤ lead && lead ≤ 0xef then some (2, 0x80, 0xbf)
  else if lead = 0xf0 then some (3, 0x90, 0xbf)
  else if 0xf1 ≤ lead && lead ≤ 0xf3 then some (3, 0x80, 0xbf)
  else if lead = 0xf4 then some (3, 0x80, 0x8f)
  else none

/-- The tail of a character of which `good` bytes after the first have been seen. -/
def tailHead (good : Nat) : Nat → Bytes → Head
  | 0, _ => .char good
  | _ + 1, [] => .cut
  | n + 1, b :: bs => if isTail b then tailHead (good + 1) n bs else .invalid good

/-- The head of the byte string `lead :: rest`. -/
def head (lead : UInt8) (rest : Bytes) : Head :=
  if lead < 0x80 then .char 0
  else match leadRange lead, rest with
    | none, _ => .invalid 0
    | some _, [] => .cut
    | some (more, low, high), b :: bs =>
      if low ≤ b && b ≤ high then tailHead 1 (more - 1) bs else .invalid 0

/-- Where the bytes stop being a text. -/
structure Fault where
  /-- The number of bytes before the fault. -/
  index : Nat
  /-- The length of the fault; none if the input ends inside a character. -/
  length : Option Nat
  deriving Repr, DecidableEq

/-- The first fault, `index` bytes having been read before. -/
def faultFrom (index : Nat) : Bytes → Option Fault
  | [] => none
  | b :: bs =>
    match head b bs with
    | .char more => faultFrom (index + 1 + more) (bs.drop more)
    | .invalid more => some ⟨index, some (more + 1)⟩
    | .cut => some ⟨index, none⟩
termination_by b => b.length
decreasing_by simp only [List.length_drop, List.length_cons]; omega

/-- The first place where the bytes stop being a text. -/
def firstFault (b : Bytes) : Option Fault := faultFrom 0 b

/-- How a fault is reported. -/
def Fault.message (f : Fault) : String :=
  match f.length with
  | some n => s!"invalid utf-8 sequence of {n} bytes from index {f.index}"
  | none => s!"incomplete utf-8 byte sequence from index {f.index}"

/-- The replacement character. -/
def replacement : Char := '\uFFFD'

/-- The code point of a character whose first byte is `lead`. -/
def codePoint (lead : UInt8) (tail : Bytes) : Nat :=
  let first := match tail.length with
    | 0 => lead.toNat
    | 1 => lead.toNat % 0x20
    | 2 => lead.toNat % 0x10
    | _ => lead.toNat % 0x08
  tail.foldl (fun n b => n * 0x40 + b.toNat % 0x40) first

/-- The characters of the bytes, each fault shown as one replacement character. -/
def lossyChars : Bytes → List Char
  | [] => []
  | b :: bs =>
    match head b bs with
    | .char more => Char.ofNat (codePoint b (bs.take more)) :: lossyChars (bs.drop more)
    | .invalid more => replacement :: lossyChars (bs.drop more)
    | .cut => [replacement]
termination_by b => b.length
decreasing_by all_goals (simp only [List.length_drop, List.length_cons]; omega)

/-- The text of the bytes as a message shows it. -/
def lossy (b : Bytes) : String :=
  match decode? b with
  | some s => s
  | none => String.ofList (lossyChars b)

end Concolic.Utf8
