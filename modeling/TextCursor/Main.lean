import TextCursor.Run
/-!
The command on a real machine. Only this module touches files, clocks and the standard
streams; what is done with them is `TextCursor.run`.
-/

namespace TextCursor

structure Machine where
  log : Option IO.FS.Handle := none
  logStarted : Nat := 0
  timings : Bool := false

abbrev Live := StateT Machine IO

namespace Live

def rawNumber? : IO.Error → Option UInt32
  | .alreadyExists _ n _ | .otherError n _ | .resourceBusy n _ | .resourceVanished n _
  | .unsupportedOperation n _ | .hardwareFault n _ | .unsatisfiedConstraints n _
  | .illegalOperation n _ | .protocolError n _ | .timeExpired n _ | .interrupted _ n _
  | .noFileOrDirectory _ n _ | .invalidArgument _ n _ | .permissionDenied _ n _
  | .resourceExhausted _ n _ | .inappropriateType _ n _ | .noSuchThing _ n _ => some n
  | .unexpectedEof | .userError _ => none

def faultOf (e : IO.Error) : Fault :=
  match (rawNumber? e).map fun n => min n (0 - n) with
  | some 2 => .notFound
  | some 17 => .alreadyExists
  | some 20 => .notDirectory
  | some 21 => .isDirectory
  | some 28 => .noSpace
  | some 36 => .nameTooLong
  | _ => .other (toString e)

def attempt {α : Type} (action : IO α) : Live (Except Fault α) := do
  match ← (action.toBaseIO : BaseIO (Except IO.Error α)) with
  | .ok a => return .ok a
  | .error e => return .error (faultOf e)

def attemptAt {α : Type} (path : String) (action : IO α) : Live (Except Fault α) :=
  if path.toList.contains '\x00' then return .error .nulInPath else attempt action

def putWhole (file : IO.FS.Handle) (content : String) : IO IO.FS.Handle := do
  file.putStr content
  file.flush
  return file

def present (path : String) : Live Bool := do
  match ← attemptAt path (IO.FS.Handle.mk path .read) with
  | .ok _ => return true
  | .error (.other _) => return true
  | .error _ => return false

def isDirectory (path : String) : Live Bool := do
  let outcome ← attemptAt path do
    let file ← IO.FS.Handle.mk path .read
    file.read 1
  return match outcome with
    | .error .isDirectory => true
    | _ => false

instance : Host Live where
  present := present
  isDirectory := isDirectory
  read path := attemptAt path (IO.FS.readBinFile path)
  write path content := attemptAt path do
    discard <| putWhole (← IO.FS.Handle.mk path .write) content
  makeDirectory path := attemptAt path (IO.FS.createDir path)
  remove path := attemptAt path (IO.FS.removeFile path)
  Writer := IO.FS.Handle
  create path := attemptAt path (IO.FS.Handle.mk path .write)
  append file content := attempt (putWhole file content)
  log := return (← get).log
  setLog log := modify fun machine => { machine with log }
  startLogClock := do
    let now ← IO.monoNanosNow
    modify fun machine => { machine with logStarted := now }
  logAge := return (← IO.monoNanosNow) - (← get).logStarted
  setTimings on := modify fun machine => { machine with timings := on }
  timings := return (← get).timings
  clock := IO.monoNanosNow

end Live

end TextCursor

def main (arguments : List String) : IO UInt32 := do
  let environment ← TextCursor.Environment.collect fun name => IO.getEnv name
  let (outcome, _) ← (TextCursor.run environment arguments : TextCursor.Live TextCursor.Outcome).run {}
  IO.eprint (outcome.errors (TextCursor.Text.milliseconds 2))
  IO.print outcome.output
  return outcome.code
