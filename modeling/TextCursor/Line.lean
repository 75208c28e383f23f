import TextCursor.Summary
/-!
A text without a cursor: its logical characters, where each CR that has an LF right behind it is
taken together with that LF, and its lines. It is cut behind every terminator, which is a pair, a CR
without an LF, or an LF without a CR. Only the last line may lack one.
-/

namespace TextCursor

structure Logical where
  char : Char
  /-- The raw index of its last character, the LF of a pair. -/
  last : Nat
  deriving DecidableEq, Repr

namespace Logical

def number (index : Nat) : List Char → List Logical
  | [] => []
  | [c] => [⟨c, index⟩]
  | c :: d :: rest =>
      if c = '\r' ∧ d = '\n' then ⟨c, index + 1⟩ :: number (index + 2) rest
      else ⟨c, index⟩ :: number (index + 1) (d :: rest)

def ofText (text : List Char) : List Logical := number 0 text

def collapse (text : List Char) : List Char := (ofText text).map char

def pairs (text : List Char) : Nat := (text.zip text.tail).count ('\r', '\n')

theorem numberNil (index : Nat) : number index [] = [] := rfl

theorem numberPair (index : Nat) (rest : List Char) :
    number index ('\r' :: '\n' :: rest) = ⟨'\r', index + 1⟩ :: number (index + 2) rest := by
  simp [number]

theorem numberSingle {c : Char} {rest : List Char} (alone : ¬(c = '\r' ∧ rest.head? = some '\n'))
    (index : Nat) : number index (c :: rest) = ⟨c, index⟩ :: number (index + 1) rest := by
  cases rest with
  | nil => rfl
  | cons d behind =>
    rw [List.head?_cons, Option.some_inj] at alone
    simp only [number, if_neg alone]

theorem pairsPair (rest : List Char) : pairs ('\r' :: '\n' :: rest) = pairs rest + 1 := by
  cases rest <;> simp [pairs]

theorem pairsSingle {c : Char} {rest : List Char} (alone : ¬(c = '\r' ∧ rest.head? = some '\n')) :
    pairs (c :: rest) = pairs rest := by
  cases rest with
  | nil => rfl
  | cons d behind =>
    rw [List.head?_cons, Option.some_inj] at alone
    simpa [pairs, List.count_cons] using alone

end Logical

open Character (isTerminator)

structure Line where
  body : List Char
  terminator : List Char
  deriving DecidableEq, Repr

namespace Line

def text (l : Line) : List Char := l.body ++ l.terminator

def isBlank (l : Line) : Bool := l.body.isEmpty

def extend (c : Char) : List Line → List Line
  | [] => [⟨[c], []⟩]
  | l :: rest => { l with body := c :: l.body } :: rest

def cut : List Char → List Line
  | [] => []
  | [c] => if isTerminator c then [⟨[], [c]⟩] else [⟨[c], []⟩]
  | c :: d :: rest =>
      if c = '\r' ∧ d = '\n' then ⟨[], [c, d]⟩ :: cut rest
      else if isTerminator c then ⟨[], [c]⟩ :: cut (d :: rest)
      else extend c (cut (d :: rest))

theorem cutNil : cut [] = [] := rfl

theorem cutPair (rest : List Char) :
    cut ('\r' :: '\n' :: rest) = ⟨[], ['\r', '\n']⟩ :: cut rest := by
  simp [cut]

theorem cutSingle {c : Char} {rest : List Char} (alone : ¬(c = '\r' ∧ rest.head? = some '\n'))
    (ends : isTerminator c) : cut (c :: rest) = ⟨[], [c]⟩ :: cut rest := by
  cases rest with
  | nil => simp [cut, ends]
  | cons d behind =>
    rw [List.head?_cons, Option.some_inj] at alone
    rw [cut, if_neg alone, if_pos ends]

theorem cutInner {c : Char} (inner : isTerminator c = false) (rest : List Char) :
    cut (c :: rest) = extend c (cut rest) := by
  have single (d : Char) : ¬(c = '\r' ∧ d = '\n') := by
    rintro ⟨rfl, _⟩
    contradiction
  cases rest with
  | nil => simp [cut, inner, extend]
  | cons d behind => rw [cut, if_neg (single d), if_neg (by simp [inner])]

theorem textExtend (c : Char) (lines : List Line) :
    (extend c lines).flatMap text = c :: lines.flatMap text := by
  cases lines <;> simp [extend, text]

theorem textCut (chars : List Char) : (cut chars).flatMap text = chars := by
  fun_induction cut chars with
  | case1 => rfl
  | case2 c => simp [text]
  | case3 c => simp [text]
  | case4 c d rest pair ih => simp [text, ih]
  | case5 c d rest single ends ih => simpa [text] using ih
  | case6 c d rest single goesOn ih => rw [textExtend, ih]

end Line

def Summary.ofLines (text : List Char) : Summary :=
  { logicalChars := text.length - Logical.pairs text
    lines := (Line.cut text).length
    blankLines := (Line.cut text).countP Line.isBlank
    pairs := Logical.pairs text
    longestLine := ((Line.cut text).map fun l => l.body.length).foldl max 0 }

end TextCursor
