/-
# Reading TOML

A text is read to statements, line by line, and the statements make up a document.  Strings
come in four forms: between single or threefold quotes, double ones with escapes or single
ones without.
-/
import Concolic.Decimal.Double
import Concolic.Text.Numeral
import Concolic.Text.Parse
import Concolic.Toml.Document

namespace Concolic.Toml

open Parse

/-- The number of sequences and tables in braces that may lie in one another. -/
def nestingLimit : Nat := 79

/-- The number of dotted keys; there are fewer in a row. -/
def keyLimit : Nat := 80

/-! ## Blanks, ends of lines, comments -/

/-- Is it a blank inside a line? -/
def isBlank (c : Char) : Bool := c = ' ' || c = '\t'

/-- Takes blanks. -/
def blanks : Parse Unit := do
  let _ ← takeWhile isBlank

/-- Takes the end of a line, if the text goes on with it. -/
def acceptNewline : Parse Bool := acceptAny ["\n", "\r\n"]

/-- May it stand in a comment or between quotes?  Control characters may not, the tab
excepted. -/
def isVisible (c : Char) : Bool := c = '\t' || (0x20 ≤ c.val && c.val ≠ 0x7f)

/-- Takes a comment, if there is one. -/
def acceptComment : Parse Bool := do
  if ← accept "#" then
    let _ ← takeWhile isVisible
    pure true
  else pure false

/-- The rest of a line that says nothing more. -/
def lineEnd : Parse Unit := do
  blanks
  let _ ← acceptComment
  if !(← acceptNewline) then check (← atEnd)

/-- Blanks, comments and ends of lines, which may stand between the items of a sequence. -/
def spacing : Parse Unit := do
  blanks
  let _ ← manyUntil (do return !((← sees "#") || (← sees "\n") || (← sees "\r"))) do
    let _ ← acceptComment
    check (← acceptNewline)
    blanks

/-! ## Strings -/

/-- The character behind a backslash. -/
def escape : Parse Char := do
  match ← next with
  | 'b' => pure '\x08'
  | 't' => pure '\t'
  | 'n' => pure '\n'
  | 'f' => pure '\x0c'
  | 'r' => pure '\r'
  | '"' => pure '"'
  | '\\' => pure '\\'
  | 'u' => numbered 4
  | 'U' => numbered 8
  | _ => refuse
where
  /-- The character with a number of `width` digits. -/
  numbered (width : Nat) : Parse Char := do
    let digits ← takeUpTo width (Numeral.isDigitTo 16)
    check (digits.length = width)
    fromOption (Numeral.toChar? (Numeral.valueTo 16 digits))

/-- A visible character that stands for itself. -/
def plain : Parse Char := do
  let c ← next
  check (isVisible c)
  pure c

/-- A text on one line; the opening quote has been taken. -/
def lineText (quote : String) (item : Parse Char) : Parse String :=
  String.ofList <$> manyUntil (accept quote) item

/-- A character of a text between double quotes. -/
def basicCharacter : Parse Char := do
  if ← accept "\\" then escape else plain

/-- The end of a line inside a text: it is one character, however the line ends. -/
def textNewline : Parse (List Char) := do
  check (← acceptNewline)
  pure ['\n']

/-- Does the text go on with blanks and then the end of a line? -/
def seesBlankEnd : Parse Bool := fun cs =>
  match cs.dropWhile isBlank with
  | '\n' :: _ => .ok (true, cs)
  | '\r' :: '\n' :: _ => .ok (true, cs)
  | _ => .ok (false, cs)

/-- What stands behind a backslash in a text of several lines: an escape, or the end of the
line, which is left out together with the blanks and ends of lines that follow. -/
def longEscape : Parse (List Char) := do
  if ← seesBlankEnd then
    blanks
    let _ ← manyUntil (do return !((← sees "\n") || (← sees "\r\n"))) do
      let _ ← acceptNewline
      blanks
    pure []
  else
    let c ← escape
    pure [c]

/-- A piece of a text of several lines between double quotes. -/
def basicPiece : Parse (List Char) := do
  if ← accept "\\" then longEscape
  else if (← sees "\n") || (← sees "\r") then textNewline
  else
    let c ← plain
    pure [c]

/-- A piece of a text of several lines between single quotes. -/
def literalPiece : Parse (List Char) := do
  if (← sees "\n") || (← sees "\r") then textNewline
  else
    let c ← plain
    pure [c]

/-- A text of several lines; the opening quotes have been taken.  A line that ends right after
them does not count.  Up to two quotes may stand right before the closing ones. -/
def longText (quotes : String) (piece : Parse (List Char)) : Parse String := do
  let _ ← acceptNewline
  let body ← manyUntil (accept quotes) piece
  let quote := String.ofList (quotes.toList.take 1)
  let one ← accept quote
  let two ← if one then accept quote else pure false
  let extra := List.replicate (one.toNat + two.toNat) (quote.toList.headD '"')
  pure (String.ofList (body.flatten ++ extra))

/-- A text of any form, if one comes next. -/
def text? : Parse (Option String) := do
  if ← accept "\"\"\"" then some <$> longText "\"\"\"" basicPiece
  else if ← accept "\"" then some <$> lineText "\"" basicCharacter
  else if ← accept "'''" then some <$> longText "'''" literalPiece
  else if ← accept "'" then some <$> lineText "'" plain
  else pure none

/-! ## Numbers, dates and truth values -/

/-- Digits with single underscores between them. -/
def digitsWith (isDigit : Char → Bool) : Parse (List Char) := do
  let first ← takeWhile isDigit
  check !first.isEmpty
  let more ← manyUntil (do return !(← accept "_")) do
    let ds ← takeWhile isDigit
    check !ds.isEmpty
    pure ds
  pure (first ++ more.flatten)

/-- A whole number that 64 bits hold. -/
def word (i : Int) : Parse Toml := do
  check (-(Numeral.signedLimit : Int) ≤ i && i < (Numeral.signedLimit : Int))
  pure (.integer i)

/-- A whole number to a base; what tells the base has been taken. -/
def based (base : Nat) : Parse Toml := do
  let digits ← digitsWith (Numeral.isDigitTo base)
  word (Numeral.valueTo base digits)

/-- An exponent, if there is one. -/
def exponent? : Parse (Option Int) := do
  if ← acceptAny ["e", "E"] then
    let isNegative ← accept "-"
    let _ ← if isNegative then pure true else accept "+"
    let power := Numeral.valueTo 10 (← digitsWith Char.isDigit)
    pure (some (if isNegative then -(power : Int) else power))
  else pure none

/-- A fractional number with these digits, times a power of ten.  One that exceeds all doubles
is refused; one that lies below all of them is not. -/
def real (isNegative : Bool) (digits : List Char) (power : Int) : Parse Toml := do
  check (isNegative || Decimal.isFinite (Numeral.valueTo 10 digits) power)
  pure .other

/-- A number to base ten whose sign has been taken. -/
def decimal (isNegative : Bool) : Parse Toml := do
  let digits ← if ← accept "0" then pure ['0'] else digitsWith Char.isDigit
  if ← accept "." then
    let part ← digitsWith Char.isDigit
    let power := (← exponent?).getD 0
    real isNegative (digits ++ part) (power - part.length)
  else
    match ← exponent? with
    | some power => real isNegative digits power
    | none =>
      let n := Numeral.valueTo 10 digits
      word (if isNegative then -(n : Int) else n)

/-- A number of `width` digits between two limits. -/
def between (width low high : Nat) : Parse Nat := do
  let digits ← takeUpTo width Char.isDigit
  let n := Numeral.valueTo 10 digits
  check (digits.length = width && low ≤ n && n ≤ high)
  pure n

/-- The number of days of a month. -/
def daysOf (year month : Nat) : Nat :=
  if month = 2 then
    if year % 4 = 0 && (year % 100 ≠ 0 || year % 400 = 0) then 29 else 28
  else if [4, 6, 9, 11].contains month then 30
  else 31

/-- A day. -/
def date : Parse Unit := do
  let year ← between 4 0 9999
  expect "-"
  let month ← between 2 1 12
  expect "-"
  let _ ← between 2 1 (daysOf year month)

/-- A time of day. -/
def time : Parse Unit := do
  let _ ← between 2 0 23
  expect ":"
  let _ ← between 2 0 59
  expect ":"
  let _ ← between 2 0 60
  if ← accept "." then
    let fraction ← takeWhile Char.isDigit
    check !fraction.isEmpty

/-- The distance of a time from the common one, if it is given. -/
def offset : Parse Unit := do
  if ← acceptAny ["Z", "z"] then pure ()
  else if ← acceptAny ["+", "-"] then
    let _ ← between 2 0 23
    expect ":"
    let _ ← between 2 0 59

/-- Does the text go on with digits up to the mark? -/
def seesDigitsThen (width : Nat) (mark : Char) : Parse Bool := fun cs =>
  .ok ((cs.take width).all Char.isDigit && cs[width]? == some mark, cs)

/-- Takes what stands between a day and its time, if a time is given. -/
def acceptDelimiter : Parse Bool := fun cs =>
  match cs with
  | ' ' :: tens :: ones :: ':' :: rest =>
    if tens.isDigit && ones.isDigit then .ok (true, tens :: ones :: ':' :: rest)
    else .ok (false, cs)
  | _ => acceptAny ["T", "t"] cs

/-- A day, and the time of that day, if it is given. -/
def dateTime : Parse Unit := do
  date
  if ← acceptDelimiter then
    time
    offset

/-- A value that is neither text nor sequence nor table. -/
def scalar : Parse Toml := do
  if ← acceptAny ["true", "false", "inf", "nan"] then pure .other
  else if ← seesDigitsThen 4 '-' then
    dateTime
    pure .other
  else if ← seesDigitsThen 2 ':' then
    time
    pure .other
  else if ← accept "0x" then based 16
  else if ← accept "0o" then based 8
  else if ← accept "0b" then based 2
  else
    let isNegative ← accept "-"
    let hasSign ← if isNegative then pure true else accept "+"
    let isSpecial ← if hasSign then acceptAny ["inf", "nan"] else pure false
    if isSpecial then pure .other else decimal isNegative

/-! ## Keys, values, lines -/

/-- May it stand in a key without quotes? -/
def isKeyCharacter (c : Char) : Bool := c.isAlphanum || c = '_' || c = '-'

/-- One key with the blanks around it. -/
def key : Parse String := do
  blanks
  let k ← do
    if ← accept "\"" then lineText "\"" basicCharacter
    else if ← accept "'" then lineText "'" plain
    else do
      let cs ← takeWhile isKeyCharacter
      check !cs.isEmpty
      pure (String.ofList cs)
  blanks
  pure k

/-- Keys joined by dots. -/
def keys : Parse (List String) := do
  let first ← key
  let rest ← manyUntil (do return !(← accept ".")) key
  check (rest.length + 1 < keyLimit)
  pure (first :: rest)

/-- The items of a sequence, given how to read one; the opening bracket has been taken. -/
def items (item : Parse Toml) : Parse (List Toml) := do
  spacing
  manyUntil (accept "]") do
    let i ← item
    spacing
    if ← accept "," then spacing else check (← sees "]")
    pure i

/-- A value under dotted keys, given how to read it. -/
def assignment (value : Parse Toml) : Parse (List String × Toml) := do
  let path ← keys
  expect "="
  blanks
  let v ← value
  blanks
  pure (path, v)

/-- The values of a table in braces, given how to read one; the opening brace has been
taken. -/
def braced (value : Parse Toml) : Parse Fields := do
  blanks
  if ← accept "\x7d" then pure []
  else
    let first ← assignment value
    let rest ← manyUntil (accept "\x7d") do
      expect ","
      assignment value
    fromOption (Fields.ofAssignments (first :: rest))

/-- A text, or a value without parts. -/
def simple : Parse Toml := do
  match ← text? with
  | some s => pure (.string s)
  | none => scalar

/-- A value with at most `depth` sequences and tables in one another. -/
def value : Nat → Parse Toml
  | 0 => simple
  | depth + 1 => do
    if ← accept "[" then .array <$> items (value depth)
    else if ← accept "\x7b" then .table .braces <$> braced (value depth)
    else simple

/-- A header, given what closes it. -/
def heading (closing : String) (statement : List String → String → Statement) :
    Parse Statement := do
  let path ← keys
  expect closing
  lineEnd
  match path.getLast? with
  | some last => pure (statement path.dropLast last)
  | none => refuse

/-- A line, which may say nothing. -/
def line : Parse (Option Statement) := do
  blanks
  if ← acceptComment then
    lineEnd
    pure none
  else if ← acceptNewline then pure none
  else if ← atEnd then pure none
  else if ← accept "[[" then some <$> heading "]]" .element
  else if ← accept "[" then some <$> heading "]" .header
  else
    let (path, v) ← assignment (value nestingLimit)
    lineEnd
    pure (some (.assignment path v))

/-- All lines of a text, which may begin with a byte order mark. -/
def lines : Parse (List Statement) := do
  let _ ← accept "\uFEFF"
  let found ← manyUntil atEnd line
  pure (found.filterMap id)

/-- The values of a text, or what is wrong with it. -/
def parse (text : String) : Except String Fields :=
  match Parse.run lines text.toList with
  | .error place => .error s!"unexpected input after {place} characters"
  | .ok statements =>
    match ofStatements statements with
    | some fields => .ok fields
    | none => .error "a key or table is given twice"

end Concolic.Toml
