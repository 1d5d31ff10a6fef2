/-
# Writing JSON

The compact form: no white space, and in strings only the quote, the backslash and the control
characters are escaped.  A value with a number that is not whole has no compact form here and
is not written by this program; zero stands in its place.
-/
import Concolic.Json.Basic
import Concolic.Text.Hex

namespace Concolic.Json

/-- A character of a string. -/
def escaped (c : Char) : List Char :=
  match c with
  | '"' => ['\\', '"']
  | '\\' => ['\\', '\\']
  | '\x08' => ['\\', 'b']
  | '\x0c' => ['\\', 'f']
  | '\n' => ['\\', 'n']
  | '\r' => ['\\', 'r']
  | '\t' => ['\\', 't']
  | c =>
    if c.val < 0x20 then
      ['\\', 'u', '0', '0', Hex.digit (c.toNat / 16), Hex.digit (c.toNat % 16)]
    else [c]

/-- A string between quotes. -/
def quotedChars (s : String) : List Char := '"' :: (s.toList.flatMap escaped ++ ['"'])

/-- The digits of a number. -/
def digitChars (n : Nat) : List Char := Nat.toDigits 10 n

/-- A number. -/
def Number.chars : Number → List Char
  | .natural n => digitChars n
  | .negative n => '-' :: digitChars n
  | .real => ['0']

mutual

/-- The compact form of a value. -/
def chars : Json → List Char
  | .null => ['n', 'u', 'l', 'l']
  | .bool true => ['t', 'r', 'u', 'e']
  | .bool false => ['f', 'a', 'l', 's', 'e']
  | .number n => n.chars
  | .string s => quotedChars s
  | .array [] => ['[', ']']
  | .array (item :: rest) => '[' :: (chars item ++ (itemsChars rest ++ [']']))
  | .object [] => ['\x7b', '\x7d']
  | .object (field :: rest) =>
    '\x7b' :: (fieldChars field ++ (fieldsChars rest ++ ['\x7d']))

/-- Items after the first one, each behind a comma. -/
def itemsChars : List Json → List Char
  | [] => []
  | item :: rest => ',' :: (chars item ++ itemsChars rest)

/-- A field. -/
def fieldChars : String × Json → List Char
  | (name, value) => quotedChars name ++ ':' :: chars value

/-- Fields after the first one, each behind a comma. -/
def fieldsChars : List (String × Json) → List Char
  | [] => []
  | field :: rest => ',' :: (fieldChars field ++ fieldsChars rest)

end

/-- The compact form of a value. -/
def print (j : Json) : String := String.ofList j.chars

end Concolic.Json
