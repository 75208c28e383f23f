/-!
The flags that shape a run. They come from settings files and from the command line, and
later ones are laid over earlier ones. A scan picks the known flags out of a list of tokens and passes
over the rest; the token behind a bare `--debug-log` is its value, whatever it looks like.

The same can be said place by place. A token is the value of a `--debug-log` if the run of such tokens
right before it is odd, for they pair up from the left. The flags are then read off all other places,
and the step log off the last place that gives one.
-/

namespace TextCursor

structure Flags where
  summary : Bool := false
  noHeader : Bool := false
  perf : Bool := false
  debugLog : Option String := none
  deriving DecidableEq, Repr

namespace Flags

def union (earlier later : Flags) : Flags :=
  { summary := earlier.summary || later.summary
    noHeader := earlier.noHeader || later.noHeader
    perf := earlier.perf || later.perf
    debugLog := later.debugLog.or earlier.debugLog }

def tokens (f : Flags) : List String :=
  (if f.summary then ["--summary"] else [])
    ++ (if f.noHeader then ["--no-header"] else [])
    ++ (if f.perf then ["--perf"] else [])
    ++ (f.debugLog.map ("--debug-log=" ++ ·)).toList

theorem unionDefault (f : Flags) : f.union {} = f := by
  cases f
  simp [union]

theorem defaultUnion (f : Flags) : Flags.union {} f = f := by
  cases f
  simp [union]

theorem unionAssoc (f g h : Flags) : (f.union g).union h = f.union (g.union h) := by
  cases f
  cases g
  cases h
  simp [union, Bool.or_assoc, Option.or_assoc]

inductive ScanError where
  | missingValue
  deriving DecidableEq, Repr

def ScanError.message : ScanError → String
  | .missingValue => "flag `--debug-log` expects a value"

def inlineValue? (token : String) : Option String :=
  ("--debug-log=".toList.isPrefixOf? token.toList).map String.ofList

def note (f : Flags) (token : String) : Flags :=
  if token = "--summary" then { f with summary := true }
  else if token = "--no-header" then { f with noHeader := true }
  else if token = "--perf" then { f with perf := true }
  else
    match inlineValue? token with
    | some path => { f with debugLog := some path }
    | none => f

def scanFrom (f : Flags) : List String → Except ScanError Flags
  | [] => .ok f
  | token :: rest =>
      if token = "--debug-log" then
        match rest with
        | [] => .error .missingValue
        | path :: rest => scanFrom { f with debugLog := some path } rest
      else scanFrom (f.note token) rest

def scan (tokens : List String) : Except ScanError Flags := scanFrom {} tokens

def runBefore (tokens : List String) (place : Nat) : Nat :=
  ((tokens.take place).reverse.takeWhile (· == "--debug-log")).length

def isValue (tokens : List String) (place : Nat) : Bool := runBefore tokens place % 2 == 1

def occurs (switch : String) (tokens : List String) : Bool :=
  (List.range tokens.length).any fun place =>
    !isValue tokens place && tokens[place]? == some switch

def pathAt? (tokens : List String) (place : Nat) : Option String :=
  if isValue tokens place then tokens[place]? else tokens[place]?.bind inlineValue?

def byPlaces (tokens : List String) : Except ScanError Flags :=
  if isValue tokens tokens.length then .error .missingValue
  else
    .ok
      { summary := occurs "--summary" tokens
        noHeader := occurs "--no-header" tokens
        perf := occurs "--perf" tokens
        debugLog := (List.range tokens.length).reverse.findSome? (pathAt? tokens) }

end Flags

end TextCursor
