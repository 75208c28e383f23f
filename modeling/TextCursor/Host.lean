import TextCursor.Path
/-!
What the library asks of the place it runs in: files by their path, files that are written piece by
piece, one of which may be kept as the step log, a switch for timings, and two clocks. Everything above
is written over a host, so a run on a real machine and a run on a `Session` are the same program.
-/

namespace TextCursor

class Host (m : Type → Type) where
  present (path : String) : m Bool
  isDirectory (path : String) : m Bool
  read (path : String) : m (Except Fault ByteArray)
  write (path : String) (content : String) : m (Except Fault Unit)
  makeDirectory (path : String) : m (Except Fault Unit)
  remove (path : String) : m (Except Fault Unit)
  Writer : Type
  create (path : String) : m (Except Fault Writer)
  append (writer : Writer) (content : String) : m (Except Fault Writer)
  log : m (Option Writer)
  setLog (log : Option Writer) : m Unit
  startLogClock : m Unit
  /-- Nanoseconds since the clock of the log was started. -/
  logAge : m Nat
  setTimings (on : Bool) : m Unit
  timings : m Bool
  clock : m Nat

namespace Host
variable {m : Type → Type} [Monad m] [Host m]

def readText (path : String) : m (Except Fault String) := do
  match ← read path with
  | .error fault => return .error fault
  | .ok bytes =>
      match String.fromUTF8? bytes with
      | some text => return .ok text
      | none => return .error .notUtf8

def settle (path : String) : Except Fault Unit → m (Except Fault Unit)
  | .ok () => return .ok ()
  | .error fault => do if ← isDirectory path then return .ok () else return .error fault

/-- Of a list in which each path is the parent of the one before it, the first. Parents are made only
when they turn out to be missing. -/
def makeAlong : List String → m (Except Fault Unit)
  | [] => return .ok ()
  | path :: outer => do
      match ← makeDirectory path with
      | .error .notFound =>
          match ← makeAlong outer with
          | .error fault => return .error fault
          | .ok () => settle path (← makeDirectory path)
      | made => settle path made

def makeDirectories (path : String) : m (Except Fault Unit) := makeAlong (Path.upward path)

end Host

end TextCursor
