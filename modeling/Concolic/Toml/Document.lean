/-
# TOML documents

A document is built line by line.  A header opens a table, and the values below it are put
there.  No key may be given twice, and no table may be opened twice.
-/
import Concolic.Toml.Basic

namespace Concolic.Toml

namespace Fields

/-- The value of a key, replaced. -/
def replace (key : String) (value : Toml) : Fields → Fields
  | [] => []
  | field :: rest =>
    if field.1 = key then (key, value) :: rest else field :: replace key value rest

/-- Changes the table that a path leads to; tables that are missing on the way are made, and of
a sequence of tables the last one is entered. -/
def under (change : Fields → Option Fields) : List String → Fields → Option Fields
  | [], fields => change fields
  | key :: rest, fields =>
    match fields.lookup key with
    | none =>
      match under change rest [] with
      | some inner => some (fields ++ [(key, .table .passed inner)])
      | none => none
    | some (.table .braces _) => none
    | some (.table origin inner) =>
      match under change rest inner with
      | some inner' => some (replace key (.table origin inner') fields)
      | none => none
    | some (.tables before last) =>
      match under change rest last with
      | some last' => some (replace key (.tables before last') fields)
      | none => none
    | some _ => none

/-- Opens a table under its header. -/
def openTable (key : String) (fields : Fields) : Option Fields :=
  match fields.lookup key with
  | none => some (fields ++ [(key, .table .header [])])
  | some (.table .passed inner) => some (replace key (.table .header inner) fields)
  | some _ => none

/-- Opens a new table at the end of a sequence of tables. -/
def openElement (key : String) (fields : Fields) : Option Fields :=
  match fields.lookup key with
  | none => some (fields ++ [(key, .tables [] [])])
  | some (.tables before last) => some (replace key (.tables (before ++ [last]) []) fields)
  | some _ => none

/-- Puts a value under dotted keys; `mayHold` tells whether the table at hand may be given a
value.  Tables with a header are not entered. -/
def assign (value : Toml) : (mayHold : Bool) → List String → Fields → Option Fields
  | _, [], _ => none
  | mayHold, [key], fields =>
    if mayHold && (fields.lookup key).isNone then some (fields ++ [(key, value)]) else none
  | _, key :: rest, fields =>
    match fields.lookup key with
    | none =>
      match assign value true rest [] with
      | some inner => some (fields ++ [(key, .table .dotted inner)])
      | none => none
    | some (.table .passed inner) =>
      match assign value false rest inner with
      | some inner' => some (replace key (.table .passed inner') fields)
      | none => none
    | some (.table .dotted inner) =>
      match assign value true rest inner with
      | some inner' => some (replace key (.table .dotted inner') fields)
      | none => none
    | some (.tables before last) =>
      match assign value false rest last with
      | some last' => some (replace key (.tables before last') fields)
      | none => none
    | some _ => none

/-- The table in braces with the given values under dotted keys. -/
def ofAssignments (assignments : List (List String × Toml)) : Option Fields :=
  assignments.foldlM (fun fields a => assign a.2 true a.1 fields) []

end Fields

/-- A document of which some lines have been read. -/
structure Draft where
  /-- The values so far. -/
  fields : Fields
  /-- The way to the table that the next values are put into. -/
  current : List String

namespace Draft

/-- One more line. -/
def add (d : Draft) : Statement → Option Draft
  | .header path key =>
    (Fields.under (Fields.openTable key) path d.fields).map fun fields =>
      ⟨fields, path ++ [key]⟩
  | .element path key =>
    (Fields.under (Fields.openElement key) path d.fields).map fun fields =>
      ⟨fields, path ++ [key]⟩
  | .assignment keys value =>
    (Fields.under (Fields.assign value true keys) d.current d.fields).map fun fields =>
      { d with fields := fields }

end Draft

/-- The values of a document. -/
def ofStatements (statements : List Statement) : Option Fields :=
  (statements.foldlM Draft.add ⟨[], []⟩).map Draft.fields

end Concolic.Toml
