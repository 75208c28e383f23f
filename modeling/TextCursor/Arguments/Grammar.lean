import TextCursor.Arguments
/-!
The command lines that are accepted, said without reading one. Options and files stand in any
order in front of the separator, and nothing but files behind it. In the whole line there is one
file, there is at most one step log, and each switch is given at most once.
-/

namespace TextCursor

def Invocation.has (i : Invocation) : Switch → Bool
  | .summary => i.flags.summary
  | .noHeader => i.flags.noHeader
  | .perf => i.flags.perf
  | .save => i.save
  | .clear => i.clear

inductive Piece where
  | switch (s : Switch)
  | joinedLog (path : String)
  | separateLog (path : String)
  | file (text : String)
  deriving DecidableEq, Repr

namespace Piece

def spelling : Piece → List String
  | .switch s => [s.text]
  | .joinedLog path => ["--debug-log=" ++ path]
  | .separateLog path => ["--debug-log", path]
  | .file text => [text]

def Fits : Piece → Prop
  | .switch _ => True
  | .joinedLog path => path ≠ ""
  | .separateLog path => path ≠ "" ∧ Taken.isSeparatePath path
  | .file text => Taken.isSeparatePath text

def switch? : Piece → Option Switch
  | .switch s => some s
  | _ => none

def stepLog? : Piece → Option String
  | .joinedLog path => some path
  | .separateLog path => some path
  | _ => none

def file? : Piece → Option String
  | .file text => some text
  | _ => none

end Piece

structure CommandLine where
  pieces : List Piece
  behind : Option (List String)
  deriving DecidableEq, Repr

namespace CommandLine

def arguments (line : CommandLine) : List String :=
  line.pieces.flatMap Piece.spelling ++ line.behind.elim [] ("--" :: ·)

def switches (line : CommandLine) : List Switch := line.pieces.filterMap Piece.switch?

def stepLogs (line : CommandLine) : List String := line.pieces.filterMap Piece.stepLog?

def files (line : CommandLine) : List String :=
  line.pieces.filterMap Piece.file? ++ line.behind.getD []

structure Gives (line : CommandLine) (i : Invocation) : Prop where
  fits : ∀ piece ∈ line.pieces, piece.Fits
  once : line.switches.Nodup
  switches : ∀ s, i.has s = decide (s ∈ line.switches)
  stepLog : line.stepLogs = i.flags.debugLog.toList
  file : line.files = [i.file]
  proper : i.file ≠ ""

end CommandLine
end TextCursor
