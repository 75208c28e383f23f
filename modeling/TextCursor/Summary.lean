import TextCursor.Cursor.Describe
/-!
Line statistics of a text, counted along one walk. A pair is one logical character; a line
is blank if it holds its terminator and nothing else; terminators do not count towards
the length of a line.
-/

namespace TextCursor
open Character (isTerminator)

structure Summary where
  logicalChars : Nat := 0
  lines : Nat := 0
  blankLines : Nat := 0
  pairs : Nat := 0
  longestLine : Nat := 0
  deriving DecidableEq, Repr

namespace Summary

structure Tally where
  summary : Summary := {}
  lineLength : Nat := 0
  deriving DecidableEq, Repr

namespace Tally

def startLine (t : Tally) (c : Cursor) : Tally :=
  if c.atLineStart then
    { summary := { t.summary with
        lines := t.summary.lines + 1
        blankLines := t.summary.blankLines + if c.atLineEnd then 1 else 0 }
      lineLength := 0 }
  else t

def countChar (t : Tally) (c : Cursor) : Tally :=
  if isTerminator c.current then
    if c.matchesChar '\r' && c.charAt 0 == '\n' then
      { t with summary.pairs := t.summary.pairs + 1 }
    else t
  else
    { summary := { t.summary with longestLine := max t.summary.longestLine (t.lineLength + 1) }
      lineLength := t.lineLength + 1 }

def step (t : Tally) (c : Cursor) : Tally :=
  let counted : Tally :=
    { t with summary.logicalChars := t.summary.logicalChars + 1 }
  (counted.startLine c).countChar c

end Tally

def ofText (text : String) : Summary := ((Cursor.ofText text).fold Tally.step {}).summary

def render (s : Summary) : String :=
  "logical chars: " ++ toString s.logicalChars ++ "\n"
    ++ "lines:         " ++ toString s.lines ++ "\n"
    ++ "blank lines:   " ++ toString s.blankLines ++ "\n"
    ++ "CRLF pairs:    " ++ toString s.pairs ++ "\n"
    ++ "longest line:  " ++ toString s.longestLine

end Summary

end TextCursor
