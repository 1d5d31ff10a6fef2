/-
# Reading JSON

A text is read to a value.  Containers may be nested up to a limit; numbers that are too large
for a double, control characters in strings and halves of surrogate pairs are refused.
-/
import Concolic.Decimal.Double
import Concolic.Json.Basic
import Concolic.Text.Numeral
import Concolic.Text.Parse

namespace Concolic.Json

open Parse

/-- The number of containers that may lie in one another. -/
def nestingLimit : Nat := 127

/-- White space between the parts of a text. -/
def isSpace (c : Char) : Bool := c = ' ' || c = '\t' || c = '\n' || c = '\r'

/-- Takes white space. -/
def space : Parse Unit := do
  let _ ← takeWhile isSpace

/-! ## Strings -/

/-- The value of four hexadecimal digits. -/
def unit? (a b c d : Char) : Option Nat :=
  if [a, b, c, d].all (Numeral.isDigitTo 16) then some (Numeral.valueTo 16 [a, b, c, d]) else none

/-- The character that two halves of a surrogate pair stand for. -/
def ofPair? (high low : Nat) : Option Char :=
  if 0xd800 ≤ high && high < 0xdc00 && 0xdc00 ≤ low && low < 0xe000 then
    some (Char.ofNat (0x10000 + (high - 0xd800) * 0x400 + (low - 0xdc00)))
  else none

/-- The character with a number that is no half of a pair. -/
def ofUnit? (n : Nat) : Option Char :=
  if 0xd800 ≤ n && n < 0xe000 then none else some (Char.ofNat n)

/-- The character that a letter after a backslash stands for. -/
def escape? (c : Char) : Option Char :=
  match c with
  | '"' => some '"'
  | '\\' => some '\\'
  | '/' => some '/'
  | 'b' => some '\x08'
  | 'f' => some '\x0c'
  | 'n' => some '\n'
  | 'r' => some '\r'
  | 't' => some '\t'
  | _ => none

/-- A character and then what comes after it. -/
def before (c : Option Char) (rest : Option (List Char × List Char)) :
    Option (List Char × List Char) :=
  match c, rest with
  | some c, some (content, rest) => some (c :: content, rest)
  | _, _ => none

/-- The content of a string whose opening quote has been taken, and what follows its closing
quote. -/
def stringRest : List Char → Option (List Char × List Char)
  | [] => none
  | '"' :: rest => some ([], rest)
  | '\\' :: 'u' :: a :: b :: c :: d :: rest =>
    match unit? a b c d with
    | none => none
    | some n =>
      match ofUnit? n with
      | some ch => before (some ch) (stringRest rest)
      | none =>
        match rest with
        | '\\' :: 'u' :: a' :: b' :: c' :: d' :: rest' =>
          before ((unit? a' b' c' d').bind (ofPair? n)) (stringRest rest')
        | _ => none
  | '\\' :: c :: rest => before (escape? c) (stringRest rest)
  | '\\' :: [] => none
  | c :: rest => if c.val < 0x20 then none else before (some c) (stringRest rest)
termination_by cs => cs.length

/-- A string whose opening quote has been taken. -/
def quotedText : Parse String := fun cs =>
  match stringRest cs with
  | some (content, rest) => .ok (String.ofList content, rest)
  | none => .error cs.length

/-! ## Numbers -/

/-- Digits, of which there must be one. -/
def digits : Parse (List Char) := do
  let ds ← takeWhile Char.isDigit
  check !ds.isEmpty
  pure ds

/-- The digits of a number as far as a word holds them: those that follow the first one that
does not fit are left out. -/
structure Significand where
  /-- The value of the digits that are kept. -/
  value : Nat
  /-- The number of digits that are left out. -/
  leftOut : Nat

/-- More digits behind those of value `value`. -/
def significand (value : Nat) : List Char → Significand
  | [] => ⟨value, 0⟩
  | d :: ds =>
    let longer := value * 10 + (d.toNat - 48)
    if longer < Numeral.wordLimit then significand longer ds else ⟨value, ds.length + 1⟩

/-- Is the number with the digits `whole` before and `part` behind the point, multiplied by
`10^power`, a finite double?  It is the product of its significand and a power of ten. -/
def isRepresentable (whole part : List Char) (power : Int) : Bool :=
  let before := significand 0 whole
  let all := significand before.value part
  let places : Nat := part.length - all.leftOut
  Decimal.isFiniteProduct all.value (before.leftOut - places + power)

/-- The part behind a point. -/
def fraction : Parse (List Char) := do
  if ← accept "." then digits else pure []

/-- The exponent, if there is one. -/
def exponent : Parse (Option Int) := do
  match ← peek? with
  | some 'e' => do
    let _ ← next
    some <$> signed
  | some 'E' => do
    let _ ← next
    some <$> signed
  | _ => pure none
where
  /-- Digits behind an optional sign. -/
  signed : Parse Int := do
    if ← accept "-" then return -(Numeral.valueTo 10 (← digits) : Int)
    let _ ← accept "+"
    return (Numeral.valueTo 10 (← digits) : Int)

/-- A number whose sign has been taken. -/
def numeral (isNegative : Bool) : Parse Number := do
  let whole ← digits
  check (whole.length = 1 || whole.head? ≠ some '0')
  let part ← fraction
  let power ← exponent
  let n := Numeral.valueTo 10 whole
  if part.isEmpty && power.isNone then
    if isNegative then
      if n ≠ 0 && n ≤ Numeral.signedLimit then return .negative n
    else if n < Numeral.wordLimit then return .natural n
  check (isRepresentable whole part (power.getD 0))
  return .real

/-! ## Values -/

/-- Items up to the closing character, given how to read one.  White space before the first
one has been taken. -/
def items {α : Type} (closing : String) (item : Parse α) : Parse (List α) := do
  if ← accept closing then pure []
  else
    let first ← item
    space
    let rest ← manyUntil (accept closing) do
      expect ","
      space
      let a ← item
      space
      pure a
    pure (first :: rest)

/-- A field, given how to read its value. -/
def field (value : Parse Json) : Parse (String × Json) := do
  expect "\""
  let name ← quotedText
  space
  expect ":"
  space
  let v ← value
  pure (name, v)

/-- A value that is no container. -/
def scalar : Parse Json := do
  if ← accept "null" then pure .null
  else if ← accept "true" then pure (.bool true)
  else if ← accept "false" then pure (.bool false)
  else if ← accept "\"" then .string <$> quotedText
  else if ← accept "-" then .number <$> numeral true
  else .number <$> numeral false

/-- A value with at most `depth` containers in one another. -/
def value : Nat → Parse Json
  | 0 => scalar
  | depth + 1 => do
    if ← accept "[" then
      space
      .array <$> items "]" (value depth)
    else if ← accept "\x7b" then
      space
      .object <$> items "\x7d" (field (value depth))
    else scalar

/-- A whole text. -/
def document : Parse Json := do
  space
  let v ← value nestingLimit
  space
  pure v

/-- The value of a text, or what is wrong with it. -/
def parse (text : String) : Except String Json :=
  match Parse.run document text.toList with
  | .ok j => .ok j
  | .error place => .error s!"unexpected input after {place} characters"

end Concolic.Json
