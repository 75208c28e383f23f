import TextCursor.Disk
import TextCursor.Host
/-!
A host made of values: a tree of files, perhaps an open log, the switch for timings, and what
the clocks are going to say; they say zero when the readings run out.
-/

namespace TextCursor

/-- Writes at its own offset, whatever else happens to its file. -/
structure Writer where
  sink : Sink
  offset : Nat
  deriving DecidableEq, Repr

structure Session where
  disk : Disk
  log : Option Writer := none
  timings : Bool := false
  readings : List Nat := []

namespace Session

def bare : Session := { disk := .bare }

def restart (s : Session) : Session := { disk := s.disk, readings := s.readings }

def settleDisk (s : Session) : Except Fault Disk → Except Fault Unit × Session
  | .ok disk => (.ok (), { s with disk })
  | .error fault => (.error fault, s)

def writeBytes (s : Session) (path : String) (bytes : ByteArray) : Except Fault Unit × Session :=
  s.settleDisk (s.disk.write path bytes)

def create (s : Session) (path : String) : Except Fault Writer × Session :=
  match s.disk.create path with
  | .error fault => (.error fault, s)
  | .ok (disk, sink) => (.ok ⟨sink, 0⟩, { s with disk })

def append (s : Session) (writer : Writer) (content : String) : Except Fault Writer × Session :=
  match s.disk.put writer.sink writer.offset content.toUTF8 with
  | .error fault => (.error fault, s)
  | .ok disk => (.ok ⟨writer.sink, writer.offset + content.utf8ByteSize⟩, { s with disk })

def readClock (s : Session) : Nat × Session := (s.readings.headD 0, { s with readings := s.readings.tail })

instance : Host (StateM Session) where
  present path s := (s.disk.present path, s)
  isDirectory path s := (s.disk.isDirectory path, s)
  read path s := (s.disk.read path, s)
  write path content s := s.writeBytes path content.toUTF8
  makeDirectory path s := s.settleDisk (s.disk.makeDirectory path)
  remove path s := s.settleDisk (s.disk.remove path)
  Writer := Writer
  create path s := s.create path
  append writer content s := s.append writer content
  log s := (s.log, s)
  setLog log s := ((), { s with log })
  startLogClock s := ((), s)
  logAge s := s.readClock
  setTimings on s := ((), { s with timings := on })
  timings s := (s.timings, s)
  clock s := s.readClock

def place (path : String) (bytes : ByteArray) : StateM Session (Except Fault Unit) := do
  match ← Host.makeDirectories ((Path.parent? path).getD "") with
  | .error fault => return .error fault
  | .ok () => fun s => s.writeBytes path bytes

end Session

end TextCursor
