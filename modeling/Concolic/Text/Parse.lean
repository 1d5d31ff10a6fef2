/-
# Reading a text character by character

A step of reading takes characters off the front of what is left of a text and gives a value,
or refuses; a refusal carries the number of characters that were left, so that the place of
the fault can be told.  Loops are bounded by the length of what is left.
-/

namespace Concolic

/-- A step of reading. -/
abbrev Parse := StateT (List Char) (Except Nat)

namespace Parse

variable {α : Type}

/-- Refuses what is left. -/
def refuse : Parse α := fun cs => .error cs.length

/-- Goes on only if the condition holds. -/
def check (condition : Bool) : Parse Unit := if condition then pure () else refuse

/-- The value, if there is one. -/
def fromOption : Option α → Parse α
  | some a => pure a
  | none => refuse

/-- Is nothing left? -/
def atEnd : Parse Bool := fun cs => .ok (cs.isEmpty, cs)

/-- The next character, which stays. -/
def peek? : Parse (Option Char) := fun cs => .ok (cs.head?, cs)

/-- The next character. -/
def next : Parse Char
  | [] => .error 0
  | c :: cs => .ok (c, cs)

/-- Does the text go on with these characters?  They stay. -/
def sees (s : String) : Parse Bool := fun cs => .ok (s.toList.isPrefixOf cs, cs)

/-- Takes these characters if the text goes on with them. -/
def accept (s : String) : Parse Bool := fun cs =>
  if s.toList.isPrefixOf cs then .ok (true, cs.drop s.length) else .ok (false, cs)

/-- Takes the first of several words that the text goes on with. -/
def acceptAny : List String → Parse Bool
  | [] => pure false
  | s :: rest => do if ← accept s then pure true else acceptAny rest

/-- Takes these characters, which must come next. -/
def expect (s : String) : Parse Unit := do check (← accept s)

/-- Takes characters as long as they satisfy the condition. -/
def takeWhile (p : Char → Bool) : Parse (List Char) := fun cs => .ok (cs.span p)

/-- Takes characters up to the place where the text goes on with `stop`, or to its end. -/
def takeUntil (stop : String) : Parse (List Char) := fun cs => go [] cs
where
  /-- The characters before `stop`, those in `acc` having been taken. -/
  go (acc : List Char) : List Char → Except Nat (List Char × List Char)
    | [] => .ok (acc.reverse, [])
    | c :: cs =>
      if stop.toList.isPrefixOf (c :: cs) then .ok (acc.reverse, c :: cs)
      else go (c :: acc) cs

/-- Takes up to `n` characters that satisfy the condition. -/
def takeUpTo (n : Nat) (p : Char → Bool) : Parse (List Char) := fun cs =>
  let taken := (cs.take n).takeWhile p
  .ok (taken, cs.drop taken.length)

/-- Does `item` until `stop` says that it is enough, at most `fuel` times. -/
def loop (stop : Parse Bool) (item : Parse α) : Nat → Parse (List α)
  | 0 => refuse
  | fuel + 1 => do
    if ← stop then pure []
    else
      let a ← item
      let rest ← loop stop item fuel
      pure (a :: rest)

/-- Does `item` until `stop` says that it is enough; every round takes a character or ends. -/
def manyUntil (stop : Parse Bool) (item : Parse α) : Parse (List α) := fun cs =>
  loop stop item (cs.length + 1) cs

/-- The value of a whole text, or the number of characters before the fault. -/
def run (p : Parse α) (text : List Char) : Except Nat α :=
  match StateT.run p text with
  | .ok (a, []) => .ok a
  | .ok (_, rest) => .error (text.length - rest.length)
  | .error left => .error (text.length - left)

end Parse

end Concolic
