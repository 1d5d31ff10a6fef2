/-
# Actions

What the program does is a tree of steps: each step asks its surroundings for one thing, and
how the program goes on depends on the answer.  The surroundings are files, an engine that is
started and closed, a log, the texts that are printed, and a clock.
-/
import Concolic.Engine.Call
import Concolic.Engine.Command
import Concolic.FileTree.Operation
import Concolic.Log.Traced
import Concolic.Run.Error

namespace Concolic

/-- One thing that is asked of the surroundings. -/
inductive Operation (P S : Type) where
  /-- Do something with files. -/
  | file (op : FileOperation)
  /-- Start an engine. -/
  | launch (command : EngineCommand)
  /-- Call the engine that was started last. -/
  | ask (call : Call P S)
  /-- Close the engine. -/
  | close
  /-- Tell an event. -/
  | tell (event : Log.Event)
  /-- Print a text. -/
  | print (text : String)
  /-- What the clock shows, as part of a name. -/
  | stamp

/-- What an operation is answered with. -/
def Operation.Answer {P S : Type} : Operation P S → Type
  | .file op => op.Answer
  | .launch _ => Except RunError Unit
  | .ask call => Except EngineError call.Answer
  | .close => Unit
  | .tell _ => Unit
  | .print _ => Unit
  | .stamp => String

/-- A tree of steps that ends with values. -/
inductive Action (P S α : Type) : Type where
  /-- The end. -/
  | done (a : α)
  /-- A step, and how to go on. -/
  | step (op : Operation P S) (next : op.Answer → Action P S α)

namespace Action

variable {P S α β : Type}

/-- One action and then another. -/
def bind (x : Action P S α) (f : α → Action P S β) : Action P S β :=
  match x with
  | .done a => f a
  | .step op next => .step op fun answer => (next answer).bind f

instance : Monad (Action P S) where
  pure := .done
  bind := Action.bind

/-- A single step. -/
def ask (op : Operation P S) : Action P S op.Answer := .step op .done

end Action

/-- An action that can fail. -/
abbrev Work (P S : Type) := ExceptT RunError (Action P S)

namespace Work

variable {P S α : Type}

/-- Does something with files. -/
def file (op : FileOperation) : Work P S op.Answer := ExceptT.lift (Action.ask (.file op))

/-- Is there a regular file? -/
def isFile (path : Path) : Work P S Bool := file (.isFile path)

/-- Is there a directory? -/
def isDirectory (path : Path) : Work P S Bool := file (.isDirectory path)

/-- The content of a file. -/
def readFile (path : Path) : Work P S (Except SystemFault Bytes) := file (.read path)

/-- The names in a directory. -/
def listDirectory (path : Path) : Work P S (Except SystemFault (List Bytes)) := file (.list path)

/-- Makes a directory and those above it. -/
def makeDirectories (path : Path) : Work P S (Except SystemFault Unit) :=
  file (.makeDirectories path)

/-- Makes a file or empties it. -/
def createFile (path : Path) : Work P S (Except SystemFault Unit) := file (.create path)

/-- Puts a content into a file that is there. -/
def writeFile (path : Path) (content : Bytes) : Work P S (Except SystemFault Unit) :=
  file (.write path content)

/-- Copies a file. -/
def copyFile (source target : Path) : Work P S (Except SystemFault Unit) :=
  file (.copy source target)

/-- What the clock shows. -/
def stamp : Work P S String := ExceptT.lift (Action.ask .stamp)

/-- Tells an event. -/
def tell (e : Log.Event) : Work P S Unit := ExceptT.lift (Action.ask (.tell e))

/-- Prints a text. -/
def print (text : String) : Work P S Unit := ExceptT.lift (Action.ask (.print text))

/-- Prints a line. -/
def printLine (line : String) : Work P S Unit := print (line ++ "\n")

/-- A result, or the error of a run that it amounts to. -/
def orFail {ε : Type} (toError : ε → RunError) (r : Except ε α) : Work P S α :=
  ExceptT.mk (.done (r.mapError toError))

/-- Does something with files that can fail at a path. -/
def orFailAt (path : Path) (r : Except SystemFault α) : Work P S α := orFail (.file path) r

/-- Tells the events of a step and goes on with its result. -/
def traced {ε : Type} (toError : ε → RunError) (x : Traced ε α) : Work P S α := do
  x.events.forM tell
  orFail toError x.result

/-- Calls the engine, whatever it answers. -/
def call (c : Call P S) : Work P S (Except EngineError c.Answer) :=
  ExceptT.lift (Action.ask (.ask c))

/-- Calls the engine, which must succeed. -/
def demand (c : Call P S) : Work P S c.Answer := do
  let answer ← call c
  orFail .engine answer

/-- The work with an engine of its own, which is closed afterwards. -/
def withEngine (command : EngineCommand) (w : Work P S α) : Work P S α := do
  let started ← ExceptT.lift (Action.ask (.launch command))
  orFail id started
  let result ← ExceptT.lift w.run
  ExceptT.lift (Action.ask .close)
  orFail id result

end Work

end Concolic
