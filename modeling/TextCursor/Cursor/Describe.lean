import TextCursor.Cursor.Basic
/-!
Looking around from a cursor. The slots see logical characters; offsets are signed, have 64 bits
and are counted in raw characters from the index, so from a pair offset 0 is the LF. Adding to an
offset stops at the largest one, and an index that a word cannot hold is no index. Texts are far
shorter than either limit, so neither shows in an answer.
-/

namespace TextCursor

namespace Offset

def further (offset : Int64) (steps : Nat) : Int64 :=
  if offset.toInt + steps ≤ Int64.maxValue.toInt then Int64.ofInt (offset.toInt + steps)
  else Int64.maxValue

def from? (index : Nat) (offset : Int64) : Option Nat :=
  let target := index + offset.toInt
  if 0 ≤ target ∧ target < UInt64.size then some target.toNat else none

/-- The number of offsets that do not lead back. No text that is held in memory is longer. -/
def reach : Nat := UInt64.size / 2

end Offset

namespace Cursor
open Character (sentinel shown)

def charAt (c : Cursor) (offset : Int64) : Char :=
  match Offset.from? c.index offset with
  | some index => rawAt c.text index
  | none => sentinel

def remaining (c : Cursor) : String := String.ofList (c.text.toList.drop c.index)

def matchesChar (c : Cursor) (expected : Char) : Bool := expected == c.current

def matchesPair (c : Cursor) (first second : Char) : Bool :=
  first == c.current && second == c.next

def matchesAt (c : Cursor) (offset : Int64) : Option String → Bool
  | none => false
  | some needle =>
      !needle.toList.isEmpty &&
        needle.toList.zipIdx.all fun (expected, i) => expected == c.charAt (Offset.further offset i)

def matchesText (c : Cursor) : Option String → Bool
  | none => false
  | some needle =>
      match needle.toList with
      | [] => false
      | [first] => first == c.current
      | first :: second :: rest =>
          first == c.current && second == c.next &&
            (rest.zipIdx 2).all fun (expected, i) => expected == c.charAt (Int64.ofNat i)

def describe (c : Cursor) : String :=
  "Walker[cursor=" ++ toString c.index
    ++ (if c.atLineStart then ", line start" else "")
    ++ (if c.atLineEnd then ", line end" else "")
    ++ ", context=" ++ shown c.previous ++ shown c.current ++ shown c.next
    ++ ", [" ++ c.remaining ++ "]]"

end Cursor

end TextCursor
