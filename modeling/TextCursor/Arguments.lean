import TextCursor.Flags
/-!
The arguments of the command. They are taken from left to right, and the first one that is
wrong, or that asks for help or the version, decides. Options have to be written out and may
be given once. Behind a separator `--` everything is a file.

This reading decides what is accepted. It knows nothing of `Flags.scan`, which looks for
flags among the same arguments on its own.
-/

namespace TextCursor

inductive Switch where
  | summary
  | noHeader
  | perf
  | save
  | clear
  deriving DecidableEq, Repr

def Switch.text : Switch → String
  | .summary => "--summary"
  | .noHeader => "--no-header"
  | .perf => "--perf"
  | .save => "--save"
  | .clear => "--clear"

def Switch.ofText? (text : String) : Option Switch :=
  [.summary, .noHeader, .perf, .save, .clear].find? fun s => s.text = text

inductive Argument where
  | separator
  | help
  | version
  | switch (s : Switch)
  | stepLog (path : Option String)
  | operand (text : String)
  | unknown (text : String)
  deriving DecidableEq, Repr

inductive UsageError where
  | noFile
  | emptyFile
  | secondFile (text : String)
  | unknownOption (text : String)
  | repeatedSwitch (s : Switch)
  | repeatedStepLog
  | noPath
  deriving DecidableEq, Repr

def UsageError.message : UsageError → String
  | .noFile => "the following required arguments were not provided:\n  <FILE>"
  | .emptyFile => "a value is required for '<FILE>' but none was supplied"
  | .secondFile text => "unexpected argument '" ++ text ++ "' found"
  | .unknownOption text => "unexpected argument '" ++ text ++ "' found"
  | .repeatedSwitch s => "the argument '" ++ s.text ++ "' cannot be used multiple times"
  | .repeatedStepLog => "the argument '--debug-log <PATH>' cannot be used multiple times"
  | .noPath => "a value is required for '--debug-log <PATH>' but none was supplied"

structure Invocation where
  file : String
  flags : Flags
  save : Bool
  clear : Bool
  deriving DecidableEq, Repr

inductive Request where
  | help
  | version
  | walk (invocation : Invocation)
  deriving DecidableEq, Repr

namespace Argument

/-- An argument that begins with one dash: the letters `h` and `V` are known, and the first
letter decides. -/
def ofShort (text : String) : List Char → Argument
  | [] => .operand text
  | 'h' :: _ => .help
  | 'V' :: _ => .version
  | _ => .unknown text

def ofName (text : String) : Argument :=
  if text = "--" then .separator
  else if text = "--help" then .help
  else if text = "--version" then .version
  else if text = "--debug-log" then .stepLog none
  else
    match Switch.ofText? text with
    | some s => .switch s
    | none => .unknown text

def ofLong (text : String) : Argument :=
  match text.toList.dropWhile (· != '=') with
  | [] => ofName text
  | _ :: value =>
      if text.toList.takeWhile (· != '=') = "--debug-log".toList then
        .stepLog (some (String.ofList value))
      else .unknown text

def ofText (text : String) : Argument :=
  match text.toList with
  | '-' :: '-' :: _ => ofLong text
  | '-' :: letters => ofShort text letters
  | _ => .operand text

end Argument

structure Taken where
  file : Option String := none
  switches : List Switch := []
  stepLog : Option String := none
  deriving DecidableEq, Repr

namespace Taken

def addFile (t : Taken) (text : String) : Except UsageError Taken :=
  if t.file.isSome then .error (.secondFile text)
  else if text.isEmpty then .error .emptyFile
  else .ok { t with file := some text }

def addSwitch (t : Taken) (s : Switch) : Except UsageError Taken :=
  if s ∈ t.switches then .error (.repeatedSwitch s)
  else .ok { t with switches := s :: t.switches }

def addStepLog (t : Taken) (path : String) : Except UsageError Taken :=
  if t.stepLog.isSome then .error .repeatedStepLog
  else if path.isEmpty then .error .noPath
  else .ok { t with stepLog := some path }

def flags (t : Taken) : Flags :=
  { summary := decide (.summary ∈ t.switches)
    noHeader := decide (.noHeader ∈ t.switches)
    perf := decide (.perf ∈ t.switches)
    debugLog := t.stepLog }

def finish (t : Taken) : Except UsageError Request :=
  match t.file with
  | none => .error .noFile
  | some file =>
      .ok (.walk
        { file, flags := t.flags
          save := decide (.save ∈ t.switches), clear := decide (.clear ∈ t.switches) })

def isSeparatePath (text : String) : Bool := text = "-" || text.toList.head? != some '-'

def readFrom (t : Taken) : List String → Except UsageError Request
  | [] => t.finish
  | text :: rest =>
      match Argument.ofText text with
      | .separator => do (← rest.foldlM addFile t).finish
      | .help => .ok .help
      | .version => .ok .version
      | .switch s => do (← t.addSwitch s).readFrom rest
      | .stepLog (some path) => do (← t.addStepLog path).readFrom rest
      | .stepLog none =>
          match rest with
          | [] => .error .noPath
          | path :: rest =>
              if isSeparatePath path then do (← t.addStepLog path).readFrom rest
              else .error .noPath
      | .operand text => do (← t.addFile text).readFrom rest
      | .unknown text => .error (.unknownOption text)

end Taken

def Request.read (arguments : List String) : Except UsageError Request :=
  Taken.readFrom {} arguments

end TextCursor
