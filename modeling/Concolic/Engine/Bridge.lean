/-
# Bridges

An engine in another process, reached through a pipe in each direction.  Every call sends one
line and reads one line, whatever the line says; when the work is done the bridge is asked to
end.  The other process is a script: it has a piece of output for each of its first requests,
and keeps account of the lines it has received.
-/
import Concolic.Engine.Reply
import Concolic.Engine.Request
import Concolic.Log.Event

namespace Concolic

/-- The other end of a bridge. -/
structure BridgeScript where
  /-- The output for each request, in order. -/
  replies : List Bytes
  /-- Does the process end right after its last output? -/
  endsAfterLast : Bool
  /-- Does the process stay, with its output at an end, rather than end itself, at a request for
  which it has no output? -/
  lingers : Bool
  deriving DecidableEq, Repr

/-- A bridge with a process at its other end. -/
structure Bridge where
  /-- The command that started the process. -/
  command : String
  /-- What the process will still do. -/
  script : BridgeScript
  /-- Is the process there? -/
  isAlive : Bool
  /-- The lines that the process has received. -/
  received : List String
  /-- Output of the process that has not been read. -/
  unread : Bytes
  deriving DecidableEq, Repr

namespace Bridge

/-- A bridge that has just been made. -/
def new (command : String) (script : BridgeScript) : Bridge where
  command := command
  script := script
  isAlive := true
  received := []
  unread := []

/-- What the process does when it has received a line. -/
def react (b : Bridge) : Bridge :=
  match b.script.replies with
  | [] => { b with isAlive := b.script.lingers }
  | reply :: rest =>
    { b with
      script := { b.script with replies := rest }
      unread := b.unread ++ reply
      isAlive := !(b.script.endsAfterLast && rest.isEmpty) }

/-- Sends a line. -/
def send (b : Bridge) (r : Request) : Except EngineError Unit × Bridge :=
  if b.isAlive then (.ok (), { b with received := b.received ++ [r.text] }.react)
  else (.error (.stream .brokenPipe), b)

/-- The end of a line. -/
def newline : UInt8 := 10

/-- The first line, with its end if it has one, and what follows it. -/
def splitLine (output : Bytes) : Bytes × Bytes :=
  let line := output.takeWhile (· ≠ newline)
  let rest := output.drop line.length
  match rest with
  | [] => (line, [])
  | ending :: after => (line ++ [ending], after)

/-- Reads a line.  There is none if the process has ended without one. -/
def readLine (b : Bridge) : Except EngineError String × Bridge :=
  if b.unread.isEmpty then (.error .closed, b)
  else
    let (line, rest) := splitLine b.unread
    let after := { b with unread := rest }
    match Utf8.decode? line with
    | some text => (.ok text, after)
    | none => (.error (.stream .notText), after)

/-- Makes a call: one line is sent and one is read. -/
def answer (c : Call Nat Nat) (b : Bridge) : Except EngineError c.Answer × Bridge :=
  match b.send (.call c) with
  | (.error e, b') => (.error e, b')
  | (.ok _, b') =>
    match b'.readLine with
    | (.error e, b'') => (.error e, b'')
    | (.ok line, b'') => (Reply.answerOf c line, b'')

/-- Asks the process to end, if it is still there.  One that hangs is ended by force. -/
def close (b : Bridge) : Bridge × List Log.Event :=
  let after := (b.send .shutdown).2
  let hangs := b.isAlive && b.script.replies.isEmpty && b.script.lingers
  ({ after with isAlive := false },
    if hangs then
      [⟨.warn, .bridge, s!"Engine bridge '{b.command}' did not exit, killing it"⟩]
    else [])

/-- What is told when a process has been started. -/
def startedEvent (command : String) (processNumber : Nat) : Log.Event :=
  ⟨.debug, .bridge, s!"Spawned engine bridge '{command}' (pid {processNumber})"⟩

end Bridge

/-- The engine at the other end of a bridge. -/
def bridgeEngine : Engine Nat Nat Bridge := ⟨Bridge.answer⟩

end Concolic
