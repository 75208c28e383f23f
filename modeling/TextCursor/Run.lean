import TextCursor.Arguments
import TextCursor.Settings
import TextCursor.StepLog
import TextCursor.Summary
/-!
One run of the command. The flags in effect come from the global settings file, then the local
one, then the arguments. Settings are saved and cleared before they are read, the step log is
opened before the file is looked at, and only then the file is read and reported on.

A run ends with an exit code, a text for the output, and notices and an error for the error stream.
-/

namespace TextCursor

inductive Notice where
  | timing (label : String) (nanoseconds : Nat)
  | logNotOpened (path : String) (cause : Fault)
  deriving DecidableEq, Repr

def Notice.line (elapsed : Nat → String) : Notice → String
  | .timing label nanoseconds => "[perf] " ++ label ++ ": " ++ elapsed nanoseconds ++ " ms\n"
  | .logNotOpened path cause =>
      "WARN textwalk: failed to open step log path=" ++ path ++ " err=" ++ cause.message ++ "\n"

inductive RunError where
  | badArguments (cause : Flags.ScanError)
  | settings (error : Settings.StoreError)
  | fileNotFound (file : String)
  | fileUnreadable (file : String) (cause : Fault)
  deriving DecidableEq, Repr

namespace RunError

def message : RunError → String
  | .badArguments cause => cause.message
  | .settings error => error.message
  | .fileNotFound file => "File not found: " ++ file
  | .fileUnreadable file _ => "Failed to read " ++ file

def cause? : RunError → Option String
  | .badArguments _ => none
  | .settings error => some error.cause
  | .fileNotFound _ => none
  | .fileUnreadable _ cause => some cause.message

def report (e : RunError) : String :=
  "Error: " ++ e.message ++ "\n"
    ++ match e.cause? with
      | none => ""
      | some cause => "\nCaused by:\n    " ++ cause ++ "\n"

end RunError

inductive Ending where
  | usage (error : UsageError)
  | told (text : String)
  | failed (error : RunError)
  | printed (text : String)
  deriving DecidableEq, Repr

structure Outcome where
  notices : List Notice := []
  ending : Ending
  deriving DecidableEq, Repr

namespace Outcome

def code (o : Outcome) : UInt32 :=
  match o.ending with
  | .usage _ => 2
  | .failed _ => 1
  | .told _ => 0
  | .printed _ => 0

def output (o : Outcome) : String :=
  match o.ending with
  | .usage _ => ""
  | .failed _ => ""
  | .told text => text
  | .printed text => text

def errors (elapsed : Nat → String) (o : Outcome) : String :=
  String.join (o.notices.map (Notice.line elapsed))
    ++ match o.ending with
      | .usage error =>
          "error: " ++ error.message ++ "\n\nUsage: textwalk [OPTIONS] <FILE>\n\n"
            ++ "For more information, try '--help'.\n"
      | .failed error => error.report
      | .told _ => ""
      | .printed _ => ""

end Outcome

def helpText : String :=
  "Show the logical characters and line flags a parser would see in a file

Usage: textwalk [OPTIONS] <FILE>

Arguments:
  <FILE>  Text file to walk

Options:
      --summary           Print line statistics instead of the step table
      --no-header         Omit the column header of the step table
      --perf              Print timings to stderr
      --debug-log <PATH>  Write one event per walker step to a file
      --save              Save current command-line flags as defaults
      --clear             Clear saved defaults
  -h, --help              Print help
  -V, --version           Print version
"

def versionText : String := "textwalk 0.1.0\n"

namespace Run
variable {m : Type → Type} [Monad m] [Host m]

def savedFlags (global : String) : m (Except Settings.StoreError Flags) := do
  match ← Settings.load global with
  | .error error => return .error error
  | .ok wide =>
      match ← Settings.load Settings.localPath with
      | .error error => return .error error
      | .ok near => return .ok (wide.union near)

def updateSettings (global : String) (invocation : Invocation) (given : Flags) :
    m (Except Settings.StoreError Unit) := do
  match ← if invocation.clear then Settings.clear global else pure (.ok ()) with
  | .error error => return .error error
  | .ok () => if invocation.save then Settings.save global given else return .ok ()

def resolve (environment : Environment) (arguments : List String) (invocation : Invocation) :
    m (Except RunError Flags) := do
  match Flags.scan arguments with
  | .error error => return .error (.badArguments error)
  | .ok given =>
      let global := Settings.globalPath environment
      match ← updateSettings global invocation given with
      | .error error => return .error (.settings error)
      | .ok () =>
          if invocation.clear then return .ok (Flags.union {} given)
          else
            match ← savedFlags global with
            | .error error => return .error (.settings error)
            | .ok saved => return .ok (saved.union given)

def logPath? (environment : Environment) (flags : Flags) : Option String :=
  flags.debugLog.or environment.stepLog

def startDiagnostics (environment : Environment) (flags : Flags) : m (List Notice) := do
  Host.setTimings flags.perf
  let path? := logPath? environment flags
  match ← StepLog.direct path? with
  | .ok () => return []
  | .error fault => return [.logNotOpened (path?.getD "<unset>") fault]

def timed {α : Type} (label : String) (work : Unit → m α) : m (α × List Notice) := do
  let start ← Host.clock
  let result ← work ()
  let stop ← Host.clock
  if ← Host.timings then return (result, [.timing label (stop - start)])
  else return (result, [])

def printSteps (flags : Flags) (steps : List Step) : String :=
  (if flags.noHeader then "" else Step.header ++ "\n") ++ Step.table steps

def report (flags : Flags) (text : String) : m Outcome := do
  if flags.summary then
    let (summary, notices) ← timed "textwalk.summarize" fun _ => pure (Summary.ofText text)
    return { notices, ending := .printed (summary.render ++ "\n") }
  else
    let (steps, notices) ← timed "textwalk.trace_steps" fun _ => StepLog.trace text
    return { notices, ending := .printed (printSteps flags steps) }

def inspect (flags : Flags) (file : String) : m Outcome := do
  if ← Host.present file then
    let (content, reading) ← timed "textwalk.read_file" fun _ => Host.readText file
    match content with
    | .error fault => return { notices := reading, ending := .failed (.fileUnreadable file fault) }
    | .ok text =>
        let reported ← report flags text
        return { reported with notices := reading ++ reported.notices }
  else return { ending := .failed (.fileNotFound file) }

def perform (environment : Environment) (arguments : List String) (invocation : Invocation) :
    m Outcome := do
  match ← resolve environment arguments invocation with
  | .error error => return { ending := .failed error }
  | .ok flags =>
      let warnings ← startDiagnostics environment flags
      let inspected ← inspect flags invocation.file
      return { inspected with notices := warnings ++ inspected.notices }

end Run

def run {m : Type → Type} [Monad m] [Host m] (environment : Environment) (arguments : List String) :
    m Outcome := do
  match Request.read arguments with
  | .error error => return { ending := .usage error }
  | .ok .help => return { ending := .told helpText }
  | .ok .version => return { ending := .told versionText }
  | .ok (.walk invocation) => Run.perform environment arguments invocation

end TextCursor
