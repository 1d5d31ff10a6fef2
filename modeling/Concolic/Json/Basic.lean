/-
# JSON values

Values as they stand in a text: the fields of an object keep their order, and a name may occur
more than once.  Whole numbers that fit 64 bits are told apart from all others.
-/

namespace Concolic

/-- A number in a JSON text. -/
inductive Json.Number where
  /-- A whole number from zero to `2^64 - 1`. -/
  | natural (n : Nat)
  /-- A whole number from `-2^63` to `-1`. -/
  | negative (magnitude : Nat)
  /-- Any other number. -/
  | real
  deriving DecidableEq, Repr

/-- A JSON value. -/
inductive Json where
  /-- Nothing. -/
  | null
  /-- A truth value. -/
  | bool (b : Bool)
  /-- A number. -/
  | number (n : Json.Number)
  /-- A text. -/
  | string (s : String)
  /-- A sequence. -/
  | array (items : List Json)
  /-- Named values. -/
  | object (fields : List (String × Json))
  deriving Repr

namespace Json

/-- A whole number that is not negative. -/
def natural (n : Nat) : Json := .number (.natural n)

/-- The whole number, if it is one that is not negative and stays below the limit. -/
def naturalBelow? (limit : Nat) : Json → Option Nat
  | .number (.natural n) => if n < limit then some n else none
  | _ => none

/-- The text, if it is one. -/
def string? : Json → Option String
  | .string s => some s
  | _ => none

/-- The items, if it is a sequence. -/
def array? : Json → Option (List Json)
  | .array items => some items
  | _ => none

/-- The value of a field; the last one counts. -/
def lastField? (fields : List (String × Json)) (name : String) : Option Json :=
  (fields.reverse.find? fun f => f.1 = name).map Prod.snd

end Json

end Concolic
