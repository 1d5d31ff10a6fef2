/-
# TOML values

A document is a table of named values.  A table knows how it came about, since that decides
what may still be put into it:

* a table in braces is complete;
* a table with a header of its own is given its values below that header;
* a table that is only passed through by the header of another one may still get a header;
* a table that is only passed through by dotted keys may be given values by further ones.

Texts, whole numbers, sequences and tables are told apart; of all other values only that they
are there is kept.
-/

namespace Concolic

/-- How a table came about. -/
inductive Toml.Origin where
  /-- It is written in braces. -/
  | braces
  /-- It has a header. -/
  | header
  /-- It lies on the way to a table with a header. -/
  | passed
  /-- It lies on the way to a value with dotted keys. -/
  | dotted
  deriving DecidableEq, Repr

/-- A value. -/
inductive Toml where
  /-- A text. -/
  | string (s : String)
  /-- A whole number of 64 bits. -/
  | integer (i : Int)
  /-- A truth value, a fractional number or a date. -/
  | other
  /-- A sequence. -/
  | array (items : List Toml)
  /-- A table. -/
  | table (origin : Toml.Origin) (fields : List (String × Toml))
  /-- A sequence of tables with headers, of which only the last one may still change. -/
  | tables (before : List (List (String × Toml))) (last : List (String × Toml))
  deriving Repr

namespace Toml

/-- The named values of a table, in the order they were given. -/
abbrev Fields := List (String × Toml)

/-- The text, if it is one. -/
def string? : Toml → Option String
  | .string s => some s
  | _ => none

/-- The whole number, if it is one that is not negative. -/
def natural? : Toml → Option Nat
  | .integer (.ofNat n) => some n
  | _ => none

/-- The items, if it is a sequence of any kind. -/
def items? : Toml → Option (List Toml)
  | .array items => some items
  | .tables before last => some ((before ++ [last]).map (.table .header))
  | _ => none

/-- The named values, if it is a single table. -/
def fields? : Toml → Option Fields
  | .table _ fields => some fields
  | _ => none

/-- Is it a table or sequence without content? -/
def isEmpty : Toml → Bool
  | .array items => items.isEmpty
  | .table _ fields => fields.isEmpty
  | _ => false

/-- A line of a document, as far as it says something. -/
inductive Statement where
  /-- What follows belongs to the table that the keys lead to. -/
  | header (path : List String) (key : String)
  /-- What follows belongs to a new table at the end of the sequence that the keys lead to. -/
  | element (path : List String) (key : String)
  /-- The value under dotted keys. -/
  | assignment (keys : List String) (value : Toml)
  deriving Repr

end Toml

end Concolic
