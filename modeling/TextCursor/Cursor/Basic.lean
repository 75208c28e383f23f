import TextCursor.Text
/-!
A cursor moves forward over a text, one logical character at a time: a CR with an LF
behind it is one character, shown as the CR. It keeps the characters before, at and
after its place, and whether that place starts or ends a line.

The index is that of the raw text. On a pair it is the index of the LF.

How many single moves a motion is made of is told by a relation. A loop has no bound: it has rounds, of
which each begins while the test holds and does the body once. Nothing says that it ends, but one that
does has begun its rounds with one list of values, and has ended with one value.
-/

namespace TextCursor
open Character (sentinel isBlank isTerminator)

structure Cursor where
  text : Array Char
  index : Nat
  previous : Char
  current : Char
  next : Char
  atLineStart : Bool
  atLineEnd : Bool
  deriving DecidableEq, Repr

namespace Cursor

def rawAt (text : Array Char) (index : Nat) : Char := text[index]?.getD sentinel

/-- The character behind `current`, which stands at `index`, and the index to keep: that of the LF,
if an LF had to be stepped over. -/
def peek (text : Array Char) (current : Char) (index : Nat) : Char × Nat :=
  if current = '\r' ∧ rawAt text (index + 1) = '\n' then (rawAt text (index + 2), index + 1)
  else (rawAt text (index + 1), index)

def hasMore (c : Cursor) : Bool := decide (c.index < c.text.size)

def ofArray (text : Array Char) : Cursor :=
  let current := rawAt text 0
  let ahead := peek text current 0
  { text, current
    index := ahead.2
    previous := sentinel
    next := ahead.1
    atLineStart := true
    atLineEnd := isTerminator current || !decide (ahead.2 < text.size) }

def ofText (text : String) : Cursor := ofArray text.toList.toArray

def advance (c : Cursor) : Cursor :=
  if c.hasMore then
    let ahead := peek c.text c.next (c.index + 1)
    { c with
      index := ahead.2
      previous := c.current
      current := c.next
      next := ahead.1
      atLineStart := c.atLineEnd
      atLineEnd := isTerminator c.next || !decide (c.index + 1 < c.text.size) }
  else
    { c with
      previous := sentinel
      current := sentinel
      next := sentinel
      atLineStart := false
      atLineEnd := true }

theorem indexLePeek (text : Array Char) (current : Char) (index : Nat) :
    index ≤ (peek text current index).2 := by
  unfold peek
  split <;> simp

@[simp] theorem advanceText (c : Cursor) : c.advance.text = c.text := by
  unfold advance
  split <;> rfl

theorem indexLtAdvance {c : Cursor} (h : c.hasMore) : c.index < c.advance.index := by
  simp only [advance, h, if_true]
  exact indexLePeek c.text c.next (c.index + 1)

theorem advanceAtEnd {c : Cursor} (h : ¬c.hasMore) : c.advance.current = sentinel := by
  simp [advance, h]

theorem advanceIndexAtEnd {c : Cursor} (h : ¬c.hasMore) : c.advance.index = c.index := by
  simp [advance, h]

theorem hasMoreIff {c : Cursor} : c.hasMore ↔ c.index < c.text.size := by
  simp [hasMore]

def advanceBy : Nat → Cursor → Cursor
  | 0, c => c
  | n + 1, c => advanceBy n c.advance

def skipBlanks (c : Cursor) : Nat × Cursor :=
  if isBlank c.current then
    let rest := c.advance.skipBlanks
    (rest.1 + 1, rest.2)
  else (0, c)
termination_by (c.text.size - c.index) + (if isBlank c.current then 1 else 0)
decreasing_by
  rename_i blank
  rw [advanceText, if_pos blank]
  by_cases more : c.hasMore
  · have moved := indexLtAdvance more
    have inside := hasMoreIff.mp more
    split <;> omega
  · rw [advanceAtEnd more, advanceIndexAtEnd more, if_neg (by decide)]
    omega

def nextLine (c : Cursor) : Cursor :=
  if c.advance.atLineStart || !c.advance.hasMore then c.advance else c.advance.nextLine
termination_by c.text.size - c.index
decreasing_by
  rename_i stay
  simp only [Bool.or_eq_true, Bool.not_eq_true', not_or, Bool.not_eq_false] at stay
  have inside := hasMoreIff.mp stay.2
  rw [advanceText] at inside ⊢
  by_cases more : c.hasMore
  · have moved := indexLtAdvance more
    omega
  · rw [advanceIndexAtEnd more] at inside
    exact absurd (hasMoreIff.mpr inside) more

def fold {σ : Type} (f : σ → Cursor → σ) (acc : σ) (c : Cursor) : σ :=
  if c.hasMore then c.advance.fold f (f acc c) else acc
termination_by c.text.size - c.index
decreasing_by
  rename_i more
  have moved := indexLtAdvance more
  have inside := hasMoreIff.mp more
  rw [advanceText]
  omega

end Cursor

inductive Motion where
  | advance
  | advanceBy (count : Nat)
  | skipBlanks
  | nextLine
  deriving DecidableEq, Repr

namespace Cursor

def move (c : Cursor) : Motion → Cursor
  | .advance => c.advance
  | .advanceBy count => c.advanceBy count
  | .skipBlanks => c.skipBlanks.2
  | .nextLine => c.nextLine

end Cursor

inductive Rounds {α : Type} (again : α → Bool) (body : α → α) : α → List α → α → Prop where
  | ended {a} (stop : again a = false) : Rounds again body a [] a
  | round {a rounds last} (goesOn : again a) (rest : Rounds again body (body a) rounds last) :
      Rounds again body a (a :: rounds) last

theorem Rounds.once {α : Type} {again : α → Bool} {body : α → α} {a last final : α}
    {rounds others : List α} (first : Rounds again body a rounds last)
    (second : Rounds again body a others final) : others = rounds ∧ final = last := by
  induction first generalizing others with
  | ended stop =>
    cases second with
    | ended _ => exact ⟨rfl, rfl⟩
    | round goesOn _ => exact absurd goesOn (by simp [stop])
  | round goesOn _ ih =>
    cases second with
    | ended stop => exact absurd goesOn (by simp [stop])
    | round _ rest =>
      obtain ⟨same, ends⟩ := ih rest
      exact ⟨congrArg _ same, ends⟩

namespace Cursor

inductive Makes (c : Cursor) : Motion → Nat → Prop where
  | advance : Makes c .advance 1
  | advanceBy (count : Nat) : Makes c (.advanceBy count) count
  | skipBlanks {rounds last} (ran : Rounds (fun c => isBlank c.current) advance c rounds last) :
      Makes c .skipBlanks rounds.length
  | nextLine {rounds last}
      (ran : Rounds (fun c => !(c.atLineStart || !c.hasMore)) advance c.advance rounds last) :
      Makes c .nextLine (rounds.length + 1)

inductive Amounts : Cursor → List Motion → Nat → Prop where
  | nothing {c} : Amounts c [] 0
  | motion {c motion motions count further} (first : c.Makes motion count)
      (behind : Amounts (c.move motion) motions further) :
      Amounts c (motion :: motions) (count + further)

end Cursor

end TextCursor
