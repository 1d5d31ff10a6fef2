/-
# Log filters

A filter is a list of directives separated by commas.  A directive is a level, the name of a
part, or a name and a level joined by `=`.  Behind the name it may say in brackets which spans
of work or which field it is about.  A name addresses every part whose own name begins with it.
Of the directives that address an event the one with the longest name decides, of those with
the same name the one that asks for a field, and of those that say the same the last one.
-/
import Concolic.Log.Event
import Concolic.Log.Pattern

namespace Concolic.Log

/-- The least important level that is shown: its rank, zero for none. -/
abbrev Threshold := Nat

/-- One rule of a filter. -/
structure Directive where
  /-- The beginning of the names that it addresses; no name addresses all parts. -/
  name : Option String
  /-- The field that an event must have. -/
  field : Option String
  /-- What is shown of the events it addresses. -/
  threshold : Threshold
  deriving DecidableEq, Repr

/-- The rules of a filter, in the order they were given. -/
abbrev Filter := List Directive

/-- Why a text is no filter. -/
inductive Refusal where
  /-- It does not say what is to be shown. -/
  | illFormed
  /-- A part of a directive would begin or end inside a character. -/
  | severed
  deriving DecidableEq, Repr

/-! ## Levels -/

/-- The threshold that a word stands for, in either case or by number. -/
def threshold? (word : String) : Option Threshold :=
  match Numeral.unsigned? word.toList with
  | some n => if n ≤ Level.trace.rank then some n else none
  | none =>
    match word.toLower with
    | "off" => some 0
    | "error" => some Level.error.rank
    | "warn" => some Level.warn.rank
    | "info" => some Level.info.rank
    | "debug" => some Level.debug.rank
    | "trace" => some Level.trace.rank
    | _ => none

/-- The threshold of a directive that gives none: everything is shown. -/
def showAll : Threshold := Level.trace.rank

/-! ## Directives

Where the parts of a directive stand is found out without the blanks around it, but they are
cut out of the word with its blanks.  So blanks at the end belong to the last part, and blanks
in front shift all parts, which may then begin or end inside a character. -/

/-- The number of bytes that characters take. -/
def byteLength (cs : List Char) : Nat := cs.foldl (fun n c => n + c.utf8Size) 0

/-- The characters behind the first `n` bytes. -/
def behind : (n : Nat) → List Char → Except Refusal (List Char)
  | 0, cs => .ok cs
  | _ + 1, [] => .error .severed
  | n + 1, c :: cs =>
    if c.utf8Size ≤ n + 1 then behind (n + 1 - c.utf8Size) cs else .error .severed
termination_by _ cs => cs.length

/-- The characters within the first `n` bytes. -/
def within : (n : Nat) → List Char → Except Refusal (List Char)
  | 0, _ => .ok []
  | _ + 1, [] => .error .severed
  | n + 1, c :: cs =>
    if c.utf8Size ≤ n + 1 then (within (n + 1 - c.utf8Size) cs).map (c :: ·)
    else .error .severed
termination_by _ cs => cs.length

/-- The characters of a word from the byte `start` up to the byte `stop`. -/
def cut (word : List Char) (start stop : Nat) : Except Refusal (List Char) := do
  within (stop - start) (← behind start word)

/-- May a directive begin with this character? -/
def isDirectiveStart (c : Char) : Bool :=
  Text.isAlphanumeric c || c = '_' || c = ':' || c = '-'

/-- The threshold that a word gives from the byte `start` on; it may give none. -/
def thresholdFrom (word : List Char) (start : Nat) : Except Refusal Threshold := do
  let level ← behind start word
  if level.isEmpty then pure showAll
  else
    match threshold? (String.ofList level) with
    | some t => pure t
    | none => throw .illFormed

/-- The threshold behind brackets, of which `rest` is left at the byte `place`. -/
def thresholdBehind (word : List Char) (place : Nat) : (rest : List Char) →
    Except Refusal Threshold
  | [] => pure showAll
  | c :: _ => if c = '=' then thresholdFrom word (place + 1) else throw .illFormed

/-- The name of the field that a condition in braces is about, unless it asks for a value. -/
def fieldName? (condition : List Char) : Except Refusal (Option String) :=
  let name := condition.takeWhile (· ≠ '=')
  match condition.drop name.length with
  | [] => pure (some (String.ofList name))
  | _ :: rest =>
    if isPattern (rest.takeWhile (· ≠ '=')) then pure none else throw .illFormed

/-- A directive about the parts of a name, given what follows its opening bracket at the byte
`start`.  Only one that asks for the presence of a field can address events; what it says about
spans, or about the values of fields, does not concern them. -/
def bracketed (word : List Char) (name : Option String) (start : Nat) (rest : List Char) :
    Except Refusal (Option Directive) := do
  let span := rest.takeWhile fun c => c ≠ ']' && c ≠ '\x7b'
  let stop := start + byteLength span
  match rest.drop span.length with
  | [] => throw .illFormed
  | ']' :: rest =>
    let _ ← cut word start stop
    let _ ← thresholdBehind word (stop + 1) rest
    pure none
  | _ :: rest =>
    let _ ← cut word start stop
    let condition := rest.takeWhile (· ≠ '\x7d')
    let last := stop + 1 + byteLength condition
    match rest.drop condition.length with
    | _ :: ']' :: rest' =>
      let field ← conditionAt (stop + 1) last
      let threshold ← thresholdBehind word (last + 2) rest'
      pure (if span.isEmpty then field.map fun f => ⟨name, some f, threshold⟩ else none)
    | [] => throw .illFormed
    | _ =>
      let _ ← conditionAt (stop + 1) last
      throw .illFormed
where
  /-- The field that the condition between two places is about. -/
  conditionAt (start stop : Nat) : Except Refusal (Option String) := do
    let condition ← cut word start stop
    if condition.isEmpty then throw .illFormed else fieldName? condition

/-- The directive that a word between two commas stands for, if it can address events. -/
def directive? (word : List Char) : Except Refusal (Option Directive) := do
  let bare := Text.strip word
  match bare with
  | [] => throw .illFormed
  | '[' :: rest => bracketed word none 1 rest
  | c :: _ =>
    if !isDirectiveStart c then throw .illFormed
    else
      let name := bare.takeWhile fun c => c ≠ '=' && c ≠ '['
      let stop := byteLength name
      match bare.drop name.length with
      | [] =>
        match threshold? (String.ofList word) with
        | some t => pure (some ⟨none, none, t⟩)
        | none => pure (some ⟨some (String.ofList word), none, showAll⟩)
      | sign :: rest => do
        let name ← String.ofList <$> cut word 0 stop
        if sign = '=' then
          let t ← thresholdFrom word (stop + 1)
          pure (some ⟨some name, none, t⟩)
        else bracketed word (some name) (stop + 1) rest

/-! ## Filters -/

/-- The words between the commas, empty ones left out. -/
def words (text : String) : List (List Char) :=
  let pieces := text.toList.foldr
    (fun c acc =>
      match acc with
      | [] => [[c]]
      | piece :: rest => if c = ',' then [] :: acc else (c :: piece) :: rest)
    [[]]
  pieces.filter fun piece => !piece.isEmpty

/-- The filter of a text; a text without directives shows failures only. -/
def Filter.parse (text : String) : Except Refusal Filter := do
  match words text with
  | [] => pure [⟨none, none, Level.error.rank⟩]
  | ws => pure ((← ws.mapM directive?).filterMap id)

/-- How much of a name a directive fixes; one without a name fixes least, and one that asks for
a field fixes more. -/
def Directive.weight (d : Directive) : Nat :=
  let byName := match d.name with
    | none => 0
    | some name => name.utf8ByteSize + 1
  2 * byName + d.field.isSome.toNat

/-- The field that every event has, and its only one. -/
def messageField : String := "message"

/-- Does the directive address the events of a part? -/
def Directive.addresses (d : Directive) (c : Component) : Bool :=
  d.field.all (· = messageField) &&
    match d.name with
    | none => true
    | some name => name.toList.isPrefixOf c.target.toList

/-- The directive that decides about the events of a part. -/
def Filter.deciding (f : Filter) (c : Component) : Option Directive :=
  f.foldl
    (fun best d =>
      if d.addresses c then
        match best with
        | none => some d
        | some b => if b.weight ≤ d.weight then some d else best
      else best)
    none

/-- Is an event shown? -/
def Filter.shows (f : Filter) (e : Event) : Bool :=
  match f.deciding e.component with
  | some d => e.level.rank ≤ d.threshold
  | none => false

/-- The filter that shows one level and all that matters more. -/
def Filter.ofLevel (level : Level) : Filter := [⟨none, none, level.rank⟩]

end Concolic.Log
