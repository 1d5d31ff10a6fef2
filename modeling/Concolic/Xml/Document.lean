/-
# Reading documents

The tags and texts of a document are put together to a tree.  Every element must be closed by
a tag of the same name, there is exactly one outermost element, and every qualifier must be
declared where it is used.
-/
import Concolic.Xml.Node
import Concolic.Xml.Token

namespace Concolic.Xml

/-- What qualifiers stand for, the innermost declaration first; no qualifier stands for the
default namespace. -/
abbrev Scope := List (Option String × String)

/-- The namespace of the qualifier `xml`. -/
def xmlSpace : String := "http://www.w3.org/XML/1998/namespace"

/-- The namespace of the qualifier `xmlns`. -/
def xmlnsSpace : String := "http://www.w3.org/2000/xmlns/"

/-- The declarations among the attributes of a tag, the others being passed over.  The
reserved namespaces can only be given to the qualifier `xml`. -/
def declarations (declared : Scope) : List WrittenAttribute → Option Scope
  | [] => some declared
  | a :: rest =>
    if a.name.qualifier = "xmlns" then
      let isReserved := a.value = xmlSpace
      if a.value = xmlnsSpace || isReserved != (a.name.localPart = "xml" : Bool)
          || declared.any (·.1 = some a.name.localPart) then none
      else if isReserved then declarations declared rest
      else declarations (declared ++ [(some a.name.localPart, a.value)]) rest
    else if a.name.localPart = "xmlns" then
      if a.value = xmlSpace || a.value = xmlnsSpace then none
      else declarations (declared ++ [(none, a.value)]) rest
    else declarations declared rest

/-- Is the attribute a declaration? -/
def WrittenAttribute.isDeclaration (a : WrittenAttribute) : Bool :=
  a.name.qualifier = "xmlns" || a.name.localPart = "xmlns"

/-- The namespace of an attribute; one without a qualifier has none. -/
def attributeSpace? (scope : Scope) (qualifier : String) : Option (Option String) :=
  if qualifier = "xml" then some (some xmlSpace)
  else if qualifier = "" then some none
  else (scope.lookup (some qualifier)).map some

/-- The attributes of an element, those in `found` having been resolved; no two may be the
same. -/
def resolveAttributes (scope : Scope) (found : List Attribute) :
    List WrittenAttribute → Option (List Attribute)
  | [] => some found
  | a :: rest =>
    if a.isDeclaration then resolveAttributes scope found rest
    else match attributeSpace? scope a.name.qualifier with
      | none => none
      | some space =>
        if found.any fun b => b.space = space && b.name = a.name.localPart then none
        else resolveAttributes scope (found ++ [⟨space, a.name.localPart, a.value⟩]) rest

/-- An element that is not closed yet. -/
structure OpenElement where
  /-- Its name as it is written. -/
  name : WrittenName
  /-- Its attributes. -/
  attributes : List Attribute
  /-- What qualifiers stand for in it. -/
  scope : Scope
  /-- Its content so far, the last part first. -/
  children : List Node

/-- The element, closed. -/
def OpenElement.close (e : OpenElement) : Node :=
  .element e.name.localPart e.attributes e.children.reverse

/-- A document that is being read. -/
structure Progress where
  /-- The elements that are open, the innermost first. -/
  opened : List OpenElement
  /-- The outermost element, once it is closed. -/
  root : Option Node

namespace Progress

/-- Puts a part into the innermost open element; texts side by side are one text. -/
def add (p : Progress) (n : Node) : Option Progress :=
  match p.opened, n with
  | [], .element .. => if p.root.isNone then some { p with root := some n } else none
  | [], .text _ => none
  | [], .aside => some p
  | e :: outer, .text characters =>
    match e.children with
    | .text before :: earlier =>
      some { p with opened :=
        { e with children := .text (before ++ characters) :: earlier } :: outer }
    | _ => some { p with opened := { e with children := n :: e.children } :: outer }
  | e :: outer, _ => some { p with opened := { e with children := n :: e.children } :: outer }

/-- Opens an element. -/
def openElement (p : Progress) (name : WrittenName) (written : List WrittenAttribute) :
    Option OpenElement := do
  let declared ← declarations [] written
  let scope := declared ++ (p.opened.head?.map OpenElement.scope).getD []
  let attributes ← resolveAttributes scope [] written
  if name.qualifier = "xmlns" then none
  else if name.qualifier = "" || (scope.lookup (some name.qualifier)).isSome then
    some ⟨name, attributes, scope, []⟩
  else none

/-- Takes the next token. -/
def step (p : Progress) : Token → Option Progress
  | .opening name written isClosed => do
    let e ← p.openElement name written
    if isClosed then p.add e.close
    else if p.opened.isEmpty && p.root.isSome then none
    else some { p with opened := e :: p.opened }
  | .closing name =>
    match p.opened with
    | e :: outer => if e.name = name then { p with opened := outer }.add e.close else none
    | [] => none
  | .text characters isPlain =>
    if p.opened.isEmpty then if isPlain then some p else none else p.add (.text characters)
  | .aside => p.add .aside

/-- Takes tokens as long as they fit. -/
def steps (p : Progress) : List Token → Option Progress
  | [] => some p
  | t :: rest => (p.step t).bind fun p' => p'.steps rest

end Progress

/-- The tree of a sequence of tokens. -/
def Node.ofTokens? (ts : List Token) : Option Node := do
  let p ← ({ opened := [], root := none } : Progress).steps ts
  if p.opened.isEmpty then p.root else none

/-- The tree of a document, or what is wrong with it. -/
def parse (document : String) : Except String Node :=
  match Parse.run tokens document.toList with
  | .error place => .error s!"unexpected input after {place} characters"
  | .ok ts =>
    match Node.ofTokens? ts with
    | some root => .ok root
    | none => .error "the tags do not make up one element with declared names"

end Concolic.Xml
