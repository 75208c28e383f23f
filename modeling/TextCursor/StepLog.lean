import TextCursor.Host
import TextCursor.Step
/-!
The step log: a first line, then an entry per event with the time since the log was opened.
The times differ from run to run; `maskTimes` takes them out of a text.
-/

namespace TextCursor.StepLog
open Text (alignRight milliseconds lines)

def firstLine : String := "textwalk step log start\n"

def stepEvent : String := "walk.step"

def entry (age : Nat) (name detail : String) : String :=
  "[" ++ alignRight 10 (milliseconds 3 age) ++ " ms] " ++ name ++ ": " ++ detail ++ "\n"

def afterTime? : List Char → Option (List Char)
  | '[' :: line =>
      let spaces := line.takeWhile (· == ' ')
      let whole := (line.drop spaces.length).takeWhile Char.isDigit
      match line.drop (spaces.length + whole.length) with
      | '.' :: a :: b :: c :: rest =>
          let width := spaces.length + whole.length + 4
          if !whole.isEmpty && a.isDigit && b.isDigit && c.isDigit
              && (width == 10 || (decide (10 < width) && spaces.isEmpty)) then
            " ms] ".toList.isPrefixOf? rest
          else none
      | _ => none
  | _ => none

def maskLine (line : List Char) : List Char :=
  match afterTime? line with
  | some rest => "[TIME ms] ".toList ++ rest
  | none => line

def maskTimes (text : String) : String :=
  "\n".intercalate ((lines text.toList).map fun line => String.ofList (maskLine line))

variable {m : Type → Type} [Monad m] [Host m]

/-- Sends the log to a file, or nowhere. The log that was open is closed in any case, and the first
line is written before another one is kept. -/
def direct (path? : Option String) : m (Except Fault Unit) := do
  Host.setLog none
  match path? with
  | none => return .ok ()
  | some path =>
      match ← Host.create path with
      | .error fault => return .error fault
      | .ok writer =>
          match ← Host.append writer firstLine with
          | .error fault => return .error fault
          | .ok writer =>
              Host.startLogClock
              Host.setLog (some writer)
              return .ok ()

def record (name detail : String) : m Unit := do
  let age ← Host.logAge
  match ← Host.log with
  | none => return ()
  | some writer =>
      match ← Host.append writer (entry age name detail) with
      | .error _ => return ()
      | .ok writer => Host.setLog (some writer)

def trace (text : String) : m (List Step) := do
  let steps := Step.ofText text
  if (← Host.log).isSome then steps.forM fun s => record stepEvent s.row
  return steps

end TextCursor.StepLog
