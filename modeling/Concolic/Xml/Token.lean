/-
# Tags and texts of a document

A document is a sequence of tags and texts.  References are replaced by what they stand for
and line ends by newlines, in an attribute value by spaces.  There are no document type
declarations, so the five predefined names are the only ones a reference may have.
-/
import Concolic.Text.Numeral
import Concolic.Text.Parse
import Concolic.Xml.Character

namespace Concolic.Xml

/-- A name as it is written: before the colon the qualifier, which may be empty. -/
structure WrittenName where
  /-- What stands before the colon. -/
  qualifier : String
  /-- What stands after it. -/
  localPart : String
  deriving DecidableEq, Repr

/-- An attribute as it is written. -/
structure WrittenAttribute where
  /-- The name. -/
  name : WrittenName
  /-- The value, without quotes and references. -/
  value : String
  deriving DecidableEq, Repr

/-- A tag, a text, or something between them. -/
inductive Token where
  /-- A tag that opens an element; an empty element is closed by it too. -/
  | opening (name : WrittenName) (attributes : List WrittenAttribute) (isClosed : Bool)
  /-- A tag that closes an element. -/
  | closing (name : WrittenName)
  /-- Characters; `isPlain` if they are only white space that needs no element around it. -/
  | text (characters : String) (isPlain : Bool)
  /-- A comment or an instruction to a processor. -/
  | aside
  deriving DecidableEq, Repr

open Parse

/-- Takes white space and tells whether there was any. -/
def space : Parse Bool := do return !(← takeWhile isSpace).isEmpty

/-- Takes the characters up to the place where the text goes on with `stop`; all of them
must be allowed. -/
def allowedUntil (stop : String) : Parse (List Char) := do
  let cs ← takeUntil stop
  check (cs.all isAllowed)
  pure cs

/-- May the part of a name begin as it does?  An empty part has no beginning. -/
def beginsWell (part : List Char) : Bool := (part.head?.map isNameStart).getD true

/-- A name with at most one colon. -/
def name : Parse WrittenName := do
  let whole ← takeWhile isNameRest
  let (qualifier, localPart) := match whole.span (· ≠ ':') with
    | (before, ':' :: after) => (before, after)
    | (before, _) => ([], before)
  check (beginsWell qualifier && beginsWell localPart && !localPart.isEmpty
    && !localPart.contains ':')
  pure ⟨String.ofList qualifier, String.ofList localPart⟩

/-- The predefined names of references. -/
def predefined? (name : String) : Option Char :=
  match name with
  | "quot" => some '"'
  | "amp" => some '&'
  | "apos" => some '\x27'
  | "lt" => some '<'
  | "gt" => some '>'
  | _ => none

/-- The character with a number; a number without a character stands for the replacement
character, and one of more than 32 bits for nothing. -/
def ofNumber? (base : Nat) (digits : List Char) : Option Char :=
  let number := Numeral.valueTo base digits
  if digits.isEmpty || 4294967296 ≤ number then none
  else
    let c := if h : number.isValidChar then Char.ofNatAux number h else '\uFFFD'
    if isAllowed c then some c else none

/-- What a reference stands for; its ampersand has been taken. -/
def reference : Parse Char := do
  let c ← if ← accept "#" then
      let base := if ← accept "x" then 16 else 10
      fromOption (ofNumber? base (← takeWhile (Numeral.isDigitTo base)))
    else fromOption (predefined? (String.ofList (← takeWhile isNameRest)))
  expect ";"
  pure c

/-- A character of a text, or one that a reference stands for. -/
structure Piece where
  /-- The character. -/
  character : Char
  /-- Does it come from a reference? -/
  isReferred : Bool

/-- The pieces of a text. -/
def pieces (cs : List Char) : Except Nat (List Piece) :=
  Parse.run (manyUntil atEnd do
    let c ← next
    if c = '&' then return ⟨← reference, true⟩ else return ⟨c, false⟩) cs

/-- The characters of an attribute value: a line end or a tab is a space unless it comes from
a reference. -/
def attributeCharacters : List Piece → List Char
  | [] => []
  | p :: rest =>
    let after := attributeCharacters rest
    if p.isReferred then p.character :: after
    else match p.character, rest with
      | '\r', q :: _ => if q.character = '\n' && !q.isReferred then after else ' ' :: after
      | '\r', [] => ' ' :: after
      | '\n', _ => ' ' :: after
      | '\t', _ => ' ' :: after
      | c, _ => c :: after

/-- Puts a character behind the text `acc`, given in reverse: a carriage return at the end of
`acc` becomes a newline, and so does one that is the last character of all. -/
def pushCharacter (acc : List Char) (c : Char) (isLast : Bool) : List Char :=
  match acc with
  | '\r' :: rest =>
    if isLast && c = '\r' then '\n' :: '\n' :: rest
    else if c = '\n' then '\n' :: rest
    else c :: '\n' :: rest
  | _ => if isLast && c = '\r' then '\n' :: acc else c :: acc

/-- The characters of a text between tags, in reverse.  Line ends become newlines; a
character from a reference stays as it is, and so does the one after it. -/
def textCharacters (acc : List Char) (isKept : Bool) : List Piece → List Char
  | [] => acc
  | p :: rest =>
    if p.isReferred then textCharacters (p.character :: acc) true rest
    else if isKept then textCharacters (p.character :: acc) false rest
    else textCharacters (pushCharacter acc p.character rest.isEmpty) false rest

/-- The characters of a section without markup, in reverse, with line ends as newlines. -/
def sectionCharacters (acc : List Char) : List Char → List Char
  | [] => acc
  | c :: rest => sectionCharacters (pushCharacter acc c rest.isEmpty) rest

/-- The sign between the name and the value of an attribute. -/
def equals : Parse Unit := do
  let _ ← space
  expect "="
  let _ ← space

/-- The characters between two quotes of the same kind; none of them opens a tag. -/
def quotedCharacters : Parse (List Char) := do
  let quote ← next
  check (quote = '"' || quote = '\x27')
  let cs ← takeWhile fun c => c ≠ quote && c ≠ '<'
  check (cs.all isAllowed)
  expect (String.singleton quote)
  pure cs

/-- An attribute. -/
def writtenAttribute : Parse WrittenAttribute := do
  let n ← name
  equals
  let cs ← quotedCharacters
  match pieces cs with
  | .ok ps => pure ⟨n, String.ofList (attributeCharacters ps)⟩
  | .error _ => refuse

/-- The attributes of a tag up to its end; is the element closed there? -/
def attributes (fuel : Nat) : Parse (List WrittenAttribute × Bool) :=
  match fuel with
  | 0 => refuse
  | fuel + 1 => do
    let spaced ← space
    if ← accept "/>" then pure ([], true)
    else if ← accept ">" then pure ([], false)
    else
      check spaced
      let a ← writtenAttribute
      let (rest, isClosed) ← attributes fuel
      pure (a :: rest, isClosed)

/-- The rest of a comment. -/
def comment : Parse Token := do
  let cs ← allowedUntil "-->"
  expect "-->"
  let inner := String.ofList cs
  check (!inner.contains "--" && !inner.endsWith "-")
  pure .aside

/-- The rest of an instruction to a processor. -/
def instruction : Parse Token := do
  let target ← takeWhile isNameRest
  check (beginsWell target && !target.isEmpty)
  let _ ← space
  let _ ← allowedUntil "?>"
  expect "?>"
  pure .aside

/-- A tag, a text, or something between them. -/
def token : Parse Token := do
  if ← accept "<!--" then comment
  else if ← accept "<![CDATA[" then
    let cs ← allowedUntil "]]>"
    expect "]]>"
    pure (.text (String.ofList (sectionCharacters [] cs).reverse) false)
  else if ← sees "<!" then refuse
  else if ← sees "<?xml " then refuse
  else if ← accept "<?" then instruction
  else if ← accept "</" then
    let n ← name
    let _ ← space
    expect ">"
    pure (.closing n)
  else if ← accept "<" then
    let n ← name
    let (attrs, isClosed) ← attributes ((← get).length + 1)
    pure (.opening n attrs isClosed)
  else
    let cs ← allowedUntil "<"
    check (!(String.ofList cs).contains "]]>")
    match pieces cs with
    | .ok ps =>
      pure (.text (String.ofList (textCharacters [] false ps).reverse) (cs.all isSpace))
    | .error _ => refuse

/-- The white space after the parts of a declaration. -/
def declarationSpace : Parse Unit := do
  let spaced ← space
  if !spaced then check ((← sees "?>") || (← atEnd))

/-- The declaration that may stand at the very beginning. -/
def declaration : Parse Unit := do
  expect "<?xml"
  declarationSpace
  check (← sees "version")
  let _ ← declared
  declarationSpace
  if ← sees "encoding" then
    let _ ← declared
    declarationSpace
  if ← sees "standalone" then
    let _ ← declared
  let _ ← space
  expect "?>"
where
  /-- One part of the declaration. -/
  declared : Parse Unit := do
    let _ ← name
    equals
    let _ ← quotedCharacters

/-- The tags and texts of a document. -/
def tokens : Parse (List Token) := do
  let _ ← accept "\uFEFF"
  if ← sees "<?xml " then declaration
  manyUntil atEnd token

end Concolic.Xml
