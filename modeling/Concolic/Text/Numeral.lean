/-
# Numerals

Whole numbers in attributes, options and settings are written with ASCII digits, after an
optional sign.  A number that does not fit its type is refused.  References and escapes write
the number of a character to base ten or sixteen.
-/

namespace Concolic.Numeral

/-- The limit of an unsigned 64-bit number, 2 to the 64th; numbers stay below it. -/
def wordLimit : Nat := 18446744073709551616

/-- The limit of a signed 64-bit number that is not negative. -/
def signedLimit : Nat := 9223372036854775808

/-- The value of a digit. -/
def digitValue? (c : Char) : Option Nat :=
  if '0' ≤ c && c ≤ '9' then some (c.toNat - 48) else none

/-- The value of a sequence of digits read after digits of value `acc`. -/
def digitsFrom (acc : Nat) : List Char → Option Nat
  | [] => some acc
  | c :: cs =>
    match digitValue? c with
    | some d => digitsFrom (acc * 10 + d) cs
    | none => none

/-- The value of a non-empty sequence of digits. -/
def digits? (cs : List Char) : Option Nat :=
  if cs.isEmpty then none else digitsFrom 0 cs

/-- A number without a minus sign, below the limit. -/
def unsigned? (cs : List Char) : Option Nat :=
  let body := match cs with
    | '+' :: rest => rest
    | _ => cs
  match digits? body with
  | some n => if n < wordLimit then some n else none
  | none => none

/-- A signed 64-bit number. -/
def signed? (cs : List Char) : Option Int :=
  match cs with
  | '-' :: rest =>
    match digits? rest with
    | some n => if n ≤ signedLimit then some (-(n : Int)) else none
    | none => none
  | '+' :: rest =>
    match digits? rest with
    | some n => if n < signedLimit then some (n : Int) else none
    | none => none
  | _ =>
    match digits? cs with
    | some n => if n < signedLimit then some (n : Int) else none
    | none => none

/-- The value of a digit to a base of at most sixteen; its case does not matter. -/
def digitTo? (base : Nat) (c : Char) : Option Nat :=
  let value :=
    if c.isDigit then c.toNat - 48
    else if 'a' ≤ c && c ≤ 'f' then c.toNat - 87
    else if 'A' ≤ c && c ≤ 'F' then c.toNat - 55
    else 16
  if value < base then some value else none

/-- Is the character a digit to the base? -/
def isDigitTo (base : Nat) (c : Char) : Bool := (digitTo? base c).isSome

/-- The value of digits to a base. -/
def valueTo (base : Nat) (digits : List Char) : Nat :=
  digits.foldl (fun n c => n * base + (digitTo? base c).getD 0) 0

/-- The character with a number. -/
def toChar? (n : Nat) : Option Char := if n.isValidChar then some (Char.ofNat n) else none

end Concolic.Numeral
