import TextCursor.Flags
import TextCursor.Host
import TextCursor.Text
/-!
Settings files: their text, where they are by the environment of a run, and how they are read, written
and removed as a whole. The text holds flags as on the command line, any number on a line, with white
space around them. An empty line and a line that begins with a hash say nothing. A line that begins with
`--debug-log` and then `=` or white space takes the rest of the line as the path, so that paths may
hold spaces.

What can be changed in a text while it goes on saying the same is said without reading it. Lines that
say nothing come and go, and so does white space at the ends of a line, CRs in front of the line feeds
among it; and a path is set off by white space where it was set off by an equals sign.
-/

namespace TextCursor

structure Environment where
  configHome : Option String := none
  home : Option String := none
  stepLog : Option String := none
  deriving DecidableEq, Repr

def Environment.collect {m : Type → Type} [Monad m] (value? : String → m (Option String)) :
    m Environment :=
  return {
    configHome := ← value? "XDG_CONFIG_HOME"
    home := ← value? "HOME"
    stepLog := ← value? "TEXTWALK_DEBUG_LOG" }

namespace Settings
open Text (isSpace trim words lines)

/-- The path on a line, after `--debug-log`. It may be empty; `none` if the line is of
another kind after all, as with `--debug-logs`. -/
def pathOnLine? : List Char → Option (List Char)
  | [] => some []
  | c :: rest =>
      if c = '=' then some (trim rest)
      else if isSpace c then some (trim rest)
      else none

def lineTokens (line : List Char) : List String :=
  match ("--debug-log".toList.isPrefixOf? line).bind pathOnLine? with
  | some [] => ["--debug-log"]
  | some path => ["--debug-log", String.ofList path]
  | none => (words line).map String.ofList

def isTelling (line : List Char) : Bool := !line.isEmpty && line.head? != some '#'

def tokens (text : List Char) : List String :=
  (((lines text).map trim).filter isTelling).flatMap lineTokens

def parse (text : String) : Except Flags.ScanError Flags := Flags.scan (tokens text.toList)

def heading : String := "# textwalk defaults (saved with --save)"

def render (f : Flags) : String := "\n".intercalate (heading :: f.tokens) ++ "\n"

inductive Silent : List Char → Prop where
  | blank {line} (space : ∀ c ∈ line, isSpace c) : Silent line
  | comment {front} (space : ∀ c ∈ front, isSpace c) (rest : List Char) : Silent (front ++ '#' :: rest)

inductive Relined : List (List Char) → List (List Char) → Prop where
  | inserted {line} (silent : Silent line) : Relined [] [line]
  | padded {front back} (line : List Char) (before : ∀ c ∈ front, isSpace c)
      (behind : ∀ c ∈ back, isSpace c) : Relined [line] [front ++ line ++ back]
  | setOff {line path gap} (own : trim line = "--debug-log=".toList ++ path) (wide : gap ≠ [])
      (space : ∀ c ∈ gap, isSpace c) : Relined [line] ["--debug-log".toList ++ gap ++ path]

def withReturns (text : List Char) : List Char :=
  text.flatMap fun c => if c = '\n' then ['\r', '\n'] else [c]

inductive Edit (old new : List Char) : Prop where
  | within {above below was now} (change : Relined was now)
      (before : lines old = above ++ was ++ below) (after : lines new = above ++ now ++ below)
  | returns (all : new = withReturns old)

def localPath : String := ".textwalkrc"

def globalPath (e : Environment) : String :=
  match e.configHome, e.home with
  | some base, _ => Path.join (Path.join base "textwalk") "config"
  | none, some home => Path.join (Path.join (Path.join home ".config") "textwalk") "config"
  | none, none => localPath

inductive StoreError where
  | unreadable (path : String) (cause : Fault)
  | invalid (path : String) (cause : Flags.ScanError)
  | noDirectory (path : String) (cause : Fault)
  | unwritable (path : String) (cause : Fault)
  | unremovable (path : String) (cause : Fault)
  deriving DecidableEq, Repr

namespace StoreError

def message : StoreError → String
  | .unreadable path _ => "Failed to read config " ++ path
  | .invalid path _ => "Invalid config " ++ path
  | .noDirectory path _ => "Failed to create config dir " ++ path
  | .unwritable path _ => "Failed to write config " ++ path
  | .unremovable path _ => "Failed to remove " ++ path

def cause : StoreError → String
  | .unreadable _ fault => fault.message
  | .invalid _ error => error.message
  | .noDirectory _ fault => fault.message
  | .unwritable _ fault => fault.message
  | .unremovable _ fault => fault.message

end StoreError

variable {m : Type → Type} [Monad m] [Host m]

def load (path : String) : m (Except StoreError Flags) := do
  if ← Host.present path then
    match ← Host.readText path with
    | .error fault => return .error (.unreadable path fault)
    | .ok text => return (parse text).mapError (.invalid path)
  else return .ok {}

def directoryOf? (path : String) : Option String :=
  (Path.parent? path).filter fun parent => !parent.isEmpty

def writeFlags (path : String) (flags : Flags) : m (Except StoreError Unit) :=
  return (← Host.write path (render flags)).mapError (.unwritable path)

def save (path : String) (flags : Flags) : m (Except StoreError Unit) := do
  match directoryOf? path with
  | none => writeFlags path flags
  | some parent =>
      match ← Host.makeDirectories parent with
      | .error fault => return .error (.noDirectory parent fault)
      | .ok () => writeFlags path flags

def clear (path : String) : m (Except StoreError Unit) := do
  if ← Host.present path then return (← Host.remove path).mapError (.unremovable path)
  else return .ok ()

end Settings

end TextCursor
