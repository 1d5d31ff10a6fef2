/-
# A tree of files

A tree of files assigns to places, given by the names on the way from the root, what stands
there: a directory, a regular file with its content, or a device that swallows what it is
given.  The entries are kept in the order in which a listing shows them.  Symbolic and hard links
are not represented: no entry stands for another place, and what is written at a place is seen at
no other one.

A path is followed name by name; every name but the last must lead to a directory, and so
must the last one if a slash or `.` follows it.
-/
import Concolic.Path
import Concolic.FileTree.Fault

namespace Concolic

/-- A place in a tree: the names that lead to it from the root. -/
abbrev Location := List Bytes

/-- What stands at a place. -/
inductive FileTree.Node where
  /-- A directory. -/
  | directory
  /-- A regular file with its content. -/
  | file (content : Bytes)
  /-- A device that reads as empty and forgets what is written to it. -/
  | device
  deriving DecidableEq, Repr

/-- A tree of files and the directory where relative paths start. -/
structure FileTree where
  /-- What stands where, in the order of a listing; the root itself is not listed. -/
  entries : List (Location × FileTree.Node)
  /-- The directory where relative paths start. -/
  current : Location
  deriving Repr

namespace FileTree

/-- What stands at a place; the root is always a directory. -/
def node? (t : FileTree) (place : Location) : Option Node :=
  if place = [] then some .directory else t.entries.lookup place

/-- The entries after `node` has been put at a place, in the order of the listing. -/
def putEntry (place : Location) (node : Node) : List (Location × Node) → List (Location × Node)
  | [] => [(place, node)]
  | entry :: rest =>
    if entry.1 = place then (place, node) :: rest else entry :: putEntry place node rest

/-- The tree after `node` has been put at a place. -/
def put (t : FileTree) (place : Location) (node : Node) : FileTree :=
  { t with entries := putEntry place node t.entries }

/-- The names of the entries right under a place, in the order of the listing. -/
def names (t : FileTree) (place : Location) : List Bytes :=
  t.entries.filterMap fun entry =>
    match entry.1.getLast? with
    | some name => if entry.1.dropLast = place then some name else none
    | none => none

/-- The limit on the length of a name. -/
def nameLimit : Nat := 255

/-- The limit on the length of a path; paths stay below it. -/
def pathLimit : Nat := 4096

/-- The place that the pieces lead to from `place`. -/
def follow (t : FileTree) (place : Location) : List Bytes → Except SystemFault Location
  | [] => .ok place
  | piece :: rest =>
    if t.node? place ≠ some .directory then .error .notADirectory
    else if piece = [] || piece = Path.here then t.follow place rest
    else if piece = Path.up then t.follow place.dropLast rest
    else if nameLimit < piece.length then .error .nameTooLong
    else match t.node? (place ++ [piece]) with
      | none => .error .notFound
      | some _ => t.follow (place ++ [piece]) rest

/-- The directory where the path starts, unless the path can lead nowhere. -/
def start (t : FileTree) (p : Path) : Except SystemFault Location :=
  if p.bytes.contains 0 then .error .nulInName
  else if p.bytes.isEmpty then .error .notFound
  else if pathLimit ≤ p.bytes.length then .error .nameTooLong
  else .ok (if p.isAbsolute then [] else t.current)

/-- The place that a path leads to. -/
def locate (t : FileTree) (p : Path) : Except SystemFault Location :=
  match t.start p with
  | .error e => .error e
  | .ok place => t.follow place p.pieces

/-- What stands where the path leads, if it leads anywhere. -/
def at? (t : FileTree) (p : Path) : Option Node :=
  match t.locate p with
  | .ok place => t.node? place
  | .error _ => none

/-- Is there a regular file? -/
def isFile (t : FileTree) (p : Path) : Bool :=
  match t.at? p with
  | some (.file _) => true
  | _ => false

/-- Is there a directory? -/
def isDirectory (t : FileTree) (p : Path) : Bool := t.at? p == some .directory

/-- The content of the file that the path leads to. -/
def read (t : FileTree) (p : Path) : Except SystemFault Bytes :=
  match t.locate p with
  | .error e => .error e
  | .ok place =>
    match t.node? place with
    | some (.file content) => .ok content
    | some .device => .ok []
    | some .directory => .error .isADirectory
    | none => .error .notFound

/-- The names in the directory that the path leads to. -/
def list (t : FileTree) (p : Path) : Except SystemFault (List Bytes) :=
  match t.locate p with
  | .error e => .error e
  | .ok place =>
    if t.node? place = some .directory then .ok (t.names place) else .error .notADirectory

/-- Where an entry is to be made: the last name of a path and what stands around it. -/
inductive Slot where
  /-- The path ends in no name, so it leads to a directory that is there already. -/
  | taken
  /-- The place to which the last name leads; does a slash follow the name? -/
  | place (location : Location) (slashed : Bool)

/-- The slot that a path leads to; all but its last name must lead to a directory. -/
def slot (t : FileTree) (p : Path) : Except SystemFault Slot :=
  match t.start p with
  | .error e => .error e
  | .ok start =>
    let pieces := (p.pieces.reverse.dropWhile List.isEmpty).reverse
    match pieces.getLast? with
    | none => .ok .taken
    | some name =>
      match t.follow start (pieces.dropLast ++ [[]]) with
      | .error e => .error e
      | .ok parent =>
        if name = Path.here || name = Path.up then .ok .taken
        else if nameLimit < name.length then .error .nameTooLong
        else .ok (.place (parent ++ [name]) (p.bytes.getLast? == some Path.slash))

/-- Makes one directory. -/
def makeDirectory (t : FileTree) (p : Path) : Except SystemFault FileTree :=
  match t.slot p with
  | .error e => .error e
  | .ok .taken => .error .alreadyExists
  | .ok (.place place _) =>
    match t.node? place with
    | some _ => .error .alreadyExists
    | none => .ok (t.put place .directory)

/-- The tree with a directory at the path.  If the directory cannot be made because one above
it is missing, those `above` it, nearest first, are made before it. -/
def makeDirectoriesUnder (t : FileTree) (p : Path) : List Path → Except SystemFault Unit × FileTree
  | [] =>
    match t.makeDirectory p with
    | .ok t' => (.ok (), t')
    | .error .notFound => (if p.bytes.isEmpty then .ok () else .error .noAncestor, t)
    | .error e => (if t.isDirectory p then .ok () else .error e, t)
  | parent :: above =>
    match t.makeDirectory p with
    | .ok t' => (.ok (), t')
    | .error .notFound =>
      match t.makeDirectoriesUnder parent above with
      | (.error e, t') => (.error e, t')
      | (.ok _, t') =>
        match t'.makeDirectory p with
        | .ok t'' => (.ok (), t'')
        | .error e => (if t'.isDirectory p then .ok () else .error e, t')
    | .error e => (if t.isDirectory p then .ok () else .error e, t)

/-- Makes the directory at the path and all that are missing above it.  What has been made
stays if a later one cannot be made. -/
def makeDirectories (t : FileTree) (p : Path) : Except SystemFault Unit × FileTree :=
  t.makeDirectoriesUnder p p.ancestors

/-- The place of a file opened for writing, which is empty then. -/
def create (t : FileTree) (p : Path) : Except SystemFault (Location × FileTree) :=
  match t.slot p with
  | .error e => .error e
  | .ok .taken => .error .isADirectory
  | .ok (.place place slashed) =>
    if slashed then .error .isADirectory
    else match t.node? place with
      | some .directory => .error .isADirectory
      | some .device => .ok (place, t)
      | some (.file _) => .ok (place, t.put place (.file []))
      | none => .ok (place, t.put place (.file []))

/-- Puts a content into a file that has been opened for writing. -/
def fill (t : FileTree) (place : Location) (content : Bytes) : FileTree :=
  match t.node? place with
  | some (.file _) => t.put place (.file content)
  | _ => t

/-- Puts a content into the file that the path leads to. -/
def write (t : FileTree) (p : Path) (content : Bytes) : Except SystemFault FileTree :=
  match t.locate p with
  | .error e => .error e
  | .ok place =>
    match t.node? place with
    | some .directory => .error .isADirectory
    | some _ => .ok (t.fill place content)
    | none => .error .notFound

/-- Copies a file.  The target is emptied before the source is read, so a file copied onto
itself is lost. -/
def copy (t : FileTree) (source target : Path) : Except SystemFault FileTree :=
  match t.locate source with
  | .error e => .error e
  | .ok place =>
    match t.node? place with
    | some (.file _) =>
      match t.create target with
      | .error e => .error e
      | .ok (written, t') =>
        match t'.node? place with
        | some (.file content) => .ok (t'.fill written content)
        | _ => .ok t'
    | _ => .error .notRegular

end FileTree

end Concolic
