/-
# Sources of bytes

What a record is read from.  Up to a wanted number of bytes can be drawn from a source, or
all that is left.  A byte string is a source; so is a supply that hands its bytes out in
pieces and may fail when the pieces are used up.
-/
import Concolic.Bytes
import Concolic.FileTree.Fault

namespace Concolic

/-- Things that bytes can be drawn from. -/
class Source (ρ : Type) where
  /-- Draws bytes until there are `n`, or until the source ends or fails. -/
  draw : Nat → ρ → Except SystemFault Bytes × ρ
  /-- Draws bytes until the source ends or fails. -/
  drain : ρ → Except SystemFault Bytes × ρ

instance : Source Bytes where
  draw n b := (.ok (b.take n), b.drop n)
  drain b := (.ok b, [])

/-- Bytes that arrive in pieces. -/
structure Supply where
  /-- The pieces that are still to come. -/
  pieces : List Bytes
  /-- How a read fails after the last piece; if it does not, the input ends there. -/
  fault : Option SystemFault
  deriving Repr

namespace Supply

/-- What a read finds after the last piece, `got` having been read before. -/
def atEnd (s : Supply) (got : Bytes) : Except SystemFault Bytes :=
  match s.fault with
  | none => .ok got
  | some fault => .error fault

/-- Draws up to `n` bytes from pieces; the rest of a piece stays for the next read.  Nothing
is read once the wanted number is reached. -/
def drawFrom (fault : Option SystemFault) (got : Bytes) :
    Nat → List Bytes → Except SystemFault Bytes × Supply
  | 0, pieces => (.ok got, ⟨pieces, fault⟩)
  | _ + 1, [] => (atEnd ⟨[], fault⟩ got, ⟨[], fault⟩)
  | n + 1, piece :: rest =>
    if piece.length ≤ n + 1 then drawFrom fault (got ++ piece) (n + 1 - piece.length) rest
    else (.ok (got ++ piece.take (n + 1)), ⟨piece.drop (n + 1) :: rest, fault⟩)
termination_by _ pieces => pieces.length

instance : Source Supply where
  draw n s := drawFrom s.fault [] n s.pieces
  drain s := (s.atEnd s.pieces.flatten, { s with pieces := [] })

/-- Pieces of at most `size` bytes; `fuel` bounds their number. -/
def cut (size : Nat) : Nat → Bytes → List Bytes
  | 0, _ => []
  | _ + 1, [] => []
  | fuel + 1, b => b.take size :: cut size fuel (b.drop size)

/-- The bytes in pieces of at most `size` bytes.  If a number is given and there are that
many, reading fails after them. -/
def ofBytes (size : Nat) (failAfter : Option Nat) (fault : SystemFault) (b : Bytes) : Supply :=
  let whole (b : Bytes) : List Bytes := cut (max size 1) b.length b
  match failAfter with
  | none => ⟨whole b, none⟩
  | some k => if k ≤ b.length then ⟨whole (b.take k), some fault⟩ else ⟨whole b, none⟩

end Supply

end Concolic
