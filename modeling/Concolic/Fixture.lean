/-
# Fixtures

Small targets to try things on: an executable that is none, and a document around the inputs
that are to be declared, with or without a companion.
-/
import Concolic.Run.Layout

namespace Concolic.Fixture

variable {P S : Type}

/-- What stands in a companion. -/
def companionContent : Bytes := Utf8.encode "serialized guest configuration\x00\x01\x02"

/-- What stands in an executable. -/
def executableContent : Bytes := [0x7f] ++ Utf8.encode "ELF"

/-- The document that declares inputs for an executable. -/
def document (executable : Path) (body : String) : String :=
  s!"<crete>\n  <exec>{executable.display}</exec>\n  {body}\n</crete>\n"

/-- Makes a file with a content. -/
def makeFile (path : Path) (content : Bytes) : Work P S Unit := do
  Work.orFailAt path (← Work.createFile path)
  Work.orFailAt path (← Work.writeFile path content)

/-- Makes an executable in a directory. -/
def makeExecutable (directory : Path) : Work P S Path := do
  let path := directory.join (Path.ofString "target-program")
  makeFile path executableContent
  pure path

/-- Makes a document in a directory, and perhaps its companion. -/
def makeDocument (directory : Path) (name text : String) (hasCompanion : Bool) : Work P S Path := do
  let path := directory.join (Path.ofString name)
  makeFile path (Utf8.encode text)
  if hasCompanion then
    makeFile (companion path) companionContent
  pure path

end Concolic.Fixture
