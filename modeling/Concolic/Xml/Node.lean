/-
# Document trees

A document is a tree of elements with texts as leaves.  Elements are told apart by the local
part of their name, in whatever namespace; an attribute is found by its name if it is in no
namespace.
-/

namespace Concolic.Xml

/-- An attribute of an element. -/
structure Attribute where
  /-- The namespace of the name, if it has one. -/
  space : Option String
  /-- The local part of the name. -/
  name : String
  /-- The value. -/
  value : String
  deriving DecidableEq, Repr

/-- A part of a document. -/
inductive Node where
  /-- An element with the local part of its name, its attributes and its content. -/
  | element (name : String) (attributes : List Attribute) (children : List Node)
  /-- Characters. -/
  | text (characters : String)
  /-- A comment or an instruction, which separates texts. -/
  | aside
  deriving Repr

namespace Node

mutual

/-- The parts of a document from this one down, in document order. -/
def descendants : Node → List Node
  | .element name attributes children =>
    .element name attributes children :: descendantsOf children
  | .text characters => [.text characters]
  | .aside => [.aside]

/-- The parts from several ones down. -/
def descendantsOf : List Node → List Node
  | [] => []
  | n :: rest => descendants n ++ descendantsOf rest

end

/-- Is it an element of this name? -/
def isNamed (tag : String) : Node → Bool
  | .element name _ _ => name = tag
  | _ => false

/-- The elements of a name, in document order. -/
def elements (root : Node) (tag : String) : List Node := root.descendants.filter (isNamed tag)

/-- The value of the attribute of a name without a namespace. -/
def attribute? (n : Node) (name : String) : Option String :=
  match n with
  | .element _ attributes _ =>
    (attributes.find? fun a => a.space = none && a.name = name).map Attribute.value
  | _ => none

/-- The text with which the content of an element begins. -/
def leadingText? : Node → Option String
  | .element _ _ (.text characters :: _) => some characters
  | _ => none

end Node

end Concolic.Xml
