import TextCursor.Cursor.Basic
/-!
A step is what a cursor sees at one place, and its row is one line of the step table. The table can be
read back: a row is taken column by column and accepted only if it is what its step prints. The
characters of the text are those in the middle column, and an index that moves by two tells of the LF
of a pair.
-/

namespace TextCursor
open Character (shown)
open Text (alignLeft alignRight lines)

structure Step where
  index : Nat
  previous : Char
  current : Char
  next : Char
  atLineStart : Bool
  atLineEnd : Bool
  deriving DecidableEq, Repr

namespace Step

def ofCursor (c : Cursor) : Step :=
  { index := c.index, previous := c.previous, current := c.current, next := c.next
    atLineStart := c.atLineStart, atLineEnd := c.atLineEnd }

def ofText (text : String) : List Step :=
  ((Cursor.ofText text).fold (fun steps c => steps.push (ofCursor c)) #[]).toList

def header : String := "cursor  prev    curr    next    flags"

def flagText (s : Step) : String :=
  match s.atLineStart, s.atLineEnd with
  | true, true => "start,end"
  | true, false => "start"
  | false, true => "end"
  | false, false => "-"

def row (s : Step) : String :=
  alignRight 6 (toString s.index) ++ "  "
    ++ alignLeft 6 (shown s.previous) ++ "  "
    ++ alignLeft 6 (shown s.current) ++ "  "
    ++ alignLeft 6 (shown s.next) ++ "  "
    ++ s.flagText

def table (steps : List Step) : String := String.join (steps.map fun s => s.row ++ "\n")

def ofCell? (cell : List Char) : Option Char :=
  let candidates := ['\x00', '\n', '\r', '\t'] ++ cell.take 1
  candidates.find? fun c => (alignLeft 6 (shown c)).toList == cell

def ofFlagText? (text : List Char) : Option (Bool × Bool) :=
  [(true, true), (true, false), (false, true), (false, false)].find? fun (start, stop) =>
    (flagText ⟨0, ' ', ' ', ' ', start, stop⟩).toList == text

def ofColumns? (index : Nat) (columns : List Char) : Option Step := do
  let previous ← ofCell? ((columns.drop 2).take 6)
  let current ← ofCell? ((columns.drop 10).take 6)
  let next ← ofCell? ((columns.drop 18).take 6)
  let (atLineStart, atLineEnd) ← ofFlagText? (columns.drop 26)
  return { index, previous, current, next, atLineStart, atLineEnd }

def ofRow? (row : List Char) : Option Step := do
  let number := row.dropWhile (· == ' ')
  let digits := number.takeWhile Char.isDigit
  let step ← ofColumns? (Nat.ofDigitChars 10 digits 0) (number.drop digits.length)
  if step.row.toList = row then some step else none

def chars (index : Nat) : List Step → List Char
  | [] => []
  | s :: rest =>
      (if s.index = index then [s.current] else [s.current, '\n']) ++ chars (s.index + 1) rest

def textOfTable? (table : String) : Option String := do
  let rows := (lines table.toList).dropLast
  return String.ofList (chars 0 (← rows.mapM ofRow?))

end Step

end TextCursor
