/-
# Patterns for values

A directive may ask that the value of a field match a regular expression.  An expression is
read term by term, and all that matters is whether it is one.

* The value of a field ends at a comma, a closing brace or an equals sign, so an expression
  cannot count its repetitions, nor have anything else in braces.
* Expressions are about characters, or about bytes within ASCII once the flag `u` has been
  taken away.  The kinds of characters that are named by a letter, the edges of words, and
  letters in either case are known for bytes only.
-/
import Concolic.Text.Alphanumeric
import Concolic.Text.Blank
import Concolic.Text.Numeral
import Concolic.Text.Parse

namespace Concolic.Log

namespace Pattern

open Parse

/-- How the terms of an expression are meant. -/
structure Mode where
  /-- Is there no difference between the cases of a letter? -/
  ignoresCase : Bool
  /-- Are they about characters, and not about bytes? -/
  isUnicode : Bool
  /-- Are blanks and comments passed over? -/
  isSpaced : Bool

namespace Mode

/-- How terms are meant unless flags say otherwise. -/
def plain : Mode := ⟨false, true, false⟩

/-- Can a character be matched?  The cases of characters are not known. -/
def knowsCases (m : Mode) : Bool := !(m.ignoresCase && m.isUnicode)

/-- A part of the mode after flags have been set and cleared. -/
def changed (flag : Char) (set cleared : List Char) (old : Bool) : Bool :=
  if set.contains flag then true else if cleared.contains flag then false else old

/-- The mode after flags; those behind a hyphen are cleared, and none may be given twice. -/
def withFlags? (m : Mode) (flags : List Char) : Option Mode :=
  if flags.all ("imsUuRx-".toList.contains ·) && flags.eraseDups.length = flags.length
      && flags.getLast? ≠ some '-' then
    let set := flags.takeWhile (· ≠ '-')
    let cleared := flags.drop set.length
    some ⟨changed 'i' set cleared m.ignoresCase, changed 'u' set cleared m.isUnicode,
      changed 'x' set cleared m.isSpaced⟩
  else none

end Mode

/-- Passes over blanks and comments, if the mode says so. -/
def skip (m : Mode) : Parse Unit := do
  if m.isSpaced then
    let _ ← takeWhile Text.isBlank
    let _ ← manyUntil (do return !(← sees "#")) do
      let _ ← takeWhile (· ≠ '\n')
      let _ ← takeWhile Text.isBlank

/-! ## Escapes -/

/-- What a backslash and the characters behind it stand for. -/
inductive Escape where
  /-- A character; `isByte` if it is given as the number of a byte. -/
  | character (c : Char) (isByte : Bool)
  /-- The characters of some kind, or all others. -/
  | kind (isNegated : Bool)
  /-- The edge of a word, or of the whole text. -/
  | edge (isOfWord : Bool)

/-- A character by its number, given the number of digits. -/
def numbered (m : Mode) (width : Nat) : Parse Escape := do
  let digits ← (List.range width).mapM fun _ => do
    skip m
    let d ← next
    check (Numeral.isDigitTo 16 d)
    pure d
  let c ← fromOption (Numeral.toChar? (Numeral.valueTo 16 digits))
  pure (.character c (width = 2))

/-- The control character that a letter stands for. -/
def control? (letter : Char) : Option Char :=
  match letter with
  | 'a' => some '\x07'
  | 'f' => some '\x0c'
  | 't' => some '\t'
  | 'n' => some '\n'
  | 'r' => some '\r'
  | 'v' => some '\x0b'
  | _ => none

/-- What comes behind a backslash.  A sign stands for itself; of the letters only some have a
meaning. -/
def escape (m : Mode) : Parse Escape := do
  let c ← next
  if c = 'x' then numbered m 2
  else if c = 'u' then numbered m 4
  else if c = 'U' then numbered m 8
  else if "dsw".toList.contains c then pure (.kind false)
  else if "DSW".toList.contains c then pure (.kind true)
  else if "Az".toList.contains c then pure (.edge false)
  else if "bB<>".toList.contains c then pure (.edge true)
  else
    match control? c with
    | some control => pure (.character control false)
    | none =>
      check (c.val < 0x80 && !c.isAlphanum)
      pure (.character c false)

/-! ## Sets of characters -/

/-- The names of kinds of characters that a set may hold, between colons and brackets. -/
def kindNames : List String :=
  ["alnum", "alpha", "ascii", "blank", "cntrl", "digit", "graph", "lower", "print", "punct",
    "space", "upper", "word", "xdigit"]

/-- Takes the rest of a named kind of characters behind its first bracket, if it is one. -/
def acceptNamed (m : Mode) : Parse Bool := do
  let before ← get
  if ← accept ":" then
    let isNegated ← accept "^"
    let name ← takeUntil ":"
    let isClosed ← accept ":]"
    if isClosed && kindNames.contains (String.ofList name) then
      check (m.isUnicode || !isNegated)
      pure true
    else
      set before
      pure false
  else pure false

/-- A character of a set, or a kind of characters. -/
def member (m : Mode) : Parse (Option Char) := do
  let e ← if ← accept "\\" then escape m else (.character · false) <$> next
  match e with
  | .character c _ =>
    check (m.isUnicode || c.val < 0x80)
    pure (some c)
  | .kind isNegated =>
    check (!m.isUnicode && !isNegated)
    pure none
  | .edge _ => refuse

/-- Does a hyphen come next that stands between the ends of a range? -/
def seesRange (m : Mode) : Parse Bool := do
  let before ← get
  if ← accept "-" then
    skip m
    let isClosed ← sees "]"
    let isDifference ← sees "-"
    set before
    pure !(isClosed || isDifference)
  else pure false

/-- A member of a set, or a range of characters, whose ends are in order. -/
def members (m : Mode) : Parse Unit := do
  let first ← member m
  skip m
  if ← seesRange m then
    expect "-"
    skip m
    let last ← member m
    check (match first, last with
      | some low, some high => low ≤ high
      | _, _ => false)

/-- The beginning of a set behind its bracket: a sign of negation, and hyphens or a closing
bracket that stand for themselves. -/
def setHead (m : Mode) : Parse Unit := do
  skip m
  if ← accept "^" then
    check m.isUnicode
    skip m
  let hyphens ← manyUntil (do return !(← accept "-")) (skip m)
  if hyphens.isEmpty then
    let _ ← accept "]"

/-- The rest of a set that lies in `depth` others. -/
def setRest (m : Mode) : (fuel depth : Nat) → Parse Unit
  | 0, _ => refuse
  | fuel + 1, depth => do
    skip m
    if ← accept "]" then
      match depth with
      | 0 => pure ()
      | outer + 1 => setRest m fuel outer
    else if ← accept "[" then
      if ← acceptNamed m then setRest m fuel depth
      else
        setHead m
        setRest m fuel (depth + 1)
    else
      if !(← acceptAny ["&&", "--", "~~"]) then members m
      setRest m fuel depth

/-- A set of characters whose bracket has been taken. -/
def characterSet (m : Mode) : Parse Unit := do
  check m.knowsCases
  setHead m
  setRest m ((← get).length + 1) 0

/-! ## Terms and groups -/

/-- An expression of which some terms have been read. -/
structure Progress where
  /-- How the next terms are meant. -/
  mode : Mode
  /-- How the terms behind the groups are meant that are still open. -/
  enclosing : List Mode
  /-- The names of groups. -/
  names : List String
  /-- Has a term come before that can be repeated? -/
  isRepeatable : Bool

/-- A term without parts. -/
def single (m : Mode) : Parse Unit := do
  if ← accept "[" then characterSet m
  else if ← accept "." then check m.isUnicode
  else if ← acceptAny ["^", "$"] then pure ()
  else if ← accept "\\" then
    match ← escape m with
    | .character c isByte => check (m.knowsCases && (m.isUnicode || !isByte || c.val < 0x80))
    | .kind isNegated => check (!m.isUnicode && !isNegated)
    | .edge isOfWord => check !(m.isUnicode && isOfWord)
  else
    let c ← next
    check (m.knowsCases && c ≠ '\x7b')

/-- The name of a group, up to the bracket that closes it. -/
def groupName : Parse String := do
  let cs ← takeUntil ">"
  expect ">"
  match cs with
  | [] => refuse
  | c :: rest =>
    check (c = '_' || Text.isAlphabetic c)
    check (rest.all fun c => "_.[]".toList.contains c || Text.isAlphanumeric c)
    pure (String.ofList cs)

/-- What comes behind the opening parenthesis of a group: its name, or flags, which may also
stand alone. -/
def opening (p : Progress) : Parse Progress := do
  skip p.mode
  let inside := { p with enclosing := p.mode :: p.enclosing, isRepeatable := false }
  if ← acceptAny ["?P<", "?<"] then
    let name ← groupName
    check !p.names.contains name
    pure { inside with names := name :: p.names }
  else if ← accept "?" then
    let flags ← takeWhile fun c => c ≠ ':' && c ≠ ')'
    let mode ← fromOption (p.mode.withFlags? flags)
    if ← accept ":" then pure { inside with mode := mode }
    else
      expect ")"
      check !flags.isEmpty
      pure { p with mode := mode, isRepeatable := false }
  else pure inside

/-- The next term, or a sign between terms. -/
def term (p : Progress) : Parse Progress := do
  if ← accept "(" then opening p
  else if ← accept ")" then
    match p.enclosing with
    | [] => refuse
    | mode :: outer => pure { p with mode := mode, enclosing := outer, isRepeatable := true }
  else if ← accept "|" then pure { p with isRepeatable := false }
  else if ← acceptAny ["?", "*", "+"] then
    check p.isRepeatable
    let _ ← accept "?"
    pure p
  else
    single p.mode
    pure { p with isRepeatable := true }

/-- All terms up to the end; no group may be open there. -/
def terms (p : Progress) : (fuel : Nat) → Parse Unit
  | 0 => refuse
  | fuel + 1 => do
    skip p.mode
    if ← atEnd then check p.enclosing.isEmpty
    else terms (← term p) fuel

/-- Is the text an expression? -/
def isExpression (text : List Char) : Bool :=
  (Parse.run (terms ⟨.plain, [], [], false⟩ (text.length + 1)) text).isOk

/-! ## Numbers -/

/-- A number with a point and an exponent, both of which may be missing. -/
def numeral : Parse Unit := do
  let whole ← takeWhile Char.isDigit
  let part ← if ← accept "." then takeWhile Char.isDigit else pure []
  check !(whole.isEmpty && part.isEmpty)
  if ← acceptAny ["e", "E"] then
    let _ ← acceptAny ["+", "-"]
    let power ← takeWhile Char.isDigit
    check !power.isEmpty

/-- Is the text a number behind an optional sign? -/
def isNumber (text : List Char) : Bool :=
  let body := match text with
    | '+' :: rest => rest
    | '-' :: rest => rest
    | _ => text
  ["inf", "infinity", "nan"].contains (String.ofList body).toLower
    || (Parse.run numeral body).isOk

end Pattern

/-- Can a directive ask for the value?  It can ask for a number, or for what matches an
expression. -/
def isPattern (value : List Char) : Bool := Pattern.isNumber value || Pattern.isExpression value

end Concolic.Log
