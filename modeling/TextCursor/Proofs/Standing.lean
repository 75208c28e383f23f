import TextCursor.Cursor.Basic
import TextCursor.Line

/-! Where a cursor can stand. Whatever moved it, a cursor is told by the raw index at which its
logical character begins, the character behind it and the flag that was handed on to it. A move
goes to the next beginning. The settled cursor, one move past the end, stands at the end too, with
nothing behind it. -/
namespace TextCursor.Cursor
open Character (sentinel isTerminator)

theorem rawAtOutside {text : Array Char} {index : Nat} (outside : text.size ≤ index) :
    rawAt text index = sentinel := by
  simp [rawAt, outside]

theorem rawAtIff {text : Array Char} {index : Nat} {c : Char} (present : c ≠ sentinel) :
    rawAt text index = c ↔ text[index]? = some c := by
  unfold rawAt
  cases found : text[index]? with
  | none => simpa using present.symm
  | some d => simp

def PairAt (text : Array Char) (start : Nat) : Prop :=
  rawAt text start = '\r' ∧ rawAt text (start + 1) = '\n'
instance (text start) : Decidable (PairAt text start) := by unfold PairAt; infer_instance

theorem pairInside {text : Array Char} {start : Nat} (pair : PairAt text start) :
    start + 1 < text.size := by
  have found := (rawAtIff (by decide)).mp pair.2
  exact (Array.getElem?_eq_some_iff.mp found).1

theorem dropPair {text : List Char} {start : Nat} (pair : PairAt text.toArray start) :
    text.drop start = '\r' :: '\n' :: text.drop (start + 2) := by
  have inside : start + 1 < text.length := by simpa using pairInside pair
  have carriage : text[start] = '\r' := by simpa [rawAt, Nat.lt_of_succ_lt inside] using pair.1
  have lineFeed : text[start + 1] = '\n' := by simpa [rawAt, inside] using pair.2
  rw [List.drop_eq_getElem_cons (Nat.lt_of_succ_lt inside), List.drop_eq_getElem_cons inside,
    carriage, lineFeed]

theorem dropSingle {text : List Char} {start : Nat} (inside : start < text.length)
    (single : ¬PairAt text.toArray start) :
    text.drop start = rawAt text.toArray start :: text.drop (start + 1) ∧
      ¬(rawAt text.toArray start = '\r' ∧ (text.drop (start + 1)).head? = some '\n') := by
  have here : rawAt text.toArray start = text[start] := by simp [rawAt, inside]
  refine ⟨by rw [List.drop_eq_getElem_cons inside, here], ?_⟩
  rintro ⟨carriage, lineFeed⟩
  refine single ⟨carriage, (rawAtIff (by decide)).mpr ?_⟩
  simpa using lineFeed

theorem peekPair {text : Array Char} {start : Nat} (pair : PairAt text start) :
    peek text (rawAt text start) start = (rawAt text (start + 2), start + 1) := if_pos pair

theorem peekSingle {text : Array Char} {start : Nat} (single : ¬PairAt text start) :
    peek text (rawAt text start) start = (rawAt text (start + 1), start) := if_neg single

def lastIndex (text : Array Char) (start : Nat) : Nat := (peek text (rawAt text start) start).2

theorem lastOfPair {text : Array Char} {start : Nat} (pair : PairAt text start) :
    lastIndex text start = start + 1 := congrArg Prod.snd (peekPair pair)

theorem lastOfSingle {text : Array Char} {start : Nat} (single : ¬PairAt text start) :
    lastIndex text start = start := congrArg Prod.snd (peekSingle single)

theorem startLeLast (text : Array Char) (start : Nat) : start ≤ lastIndex text start :=
  indexLePeek text (rawAt text start) start

theorem lastIndexInside (text : Array Char) (start : Nat) :
    lastIndex text start < text.size ↔ start < text.size := by
  rcases Decidable.em (PairAt text start) with pair | single
  · have inside := pairInside pair
    rw [lastOfPair pair]
    omega
  · rw [lastOfSingle single]

/- Neither half of a pair is taken for a CR with an LF still behind it. -/
theorem noPairAcross {text : Array Char} {start : Nat} (carriage : rawAt text (lastIndex text start) = '\r') :
    rawAt text (lastIndex text start + 1) ≠ '\n' := by
  rcases Decidable.em (PairAt text start) with pair | single
  · rw [lastOfPair pair, pair.2] at carriage
    contradiction
  · rw [lastOfSingle single] at carriage ⊢
    exact fun lineFeed => single ⟨carriage, lineFeed⟩

theorem peekStart (text : Array Char) (start : Nat) :
    peek text (rawAt text start) start =
      (rawAt text (lastIndex text start + 1), lastIndex text start) := by
  rcases Decidable.em (PairAt text start) with pair | single
  · rw [lastOfPair pair, peekPair pair]
  · rw [lastOfSingle single, peekSingle single]

def standing (text : Array Char) (start : Nat) (previous : Char) (atLineStart : Bool) : Cursor :=
  { text
    index := lastIndex text start
    previous
    current := rawAt text start
    next := rawAt text (lastIndex text start + 1)
    atLineStart
    atLineEnd := isTerminator (rawAt text start) || !decide (start < text.size) }

def OnPair (c : Cursor) : Prop := c.current = '\r' ∧ rawAt c.text c.index = '\n'
instance (c : Cursor) : Decidable c.OnPair := by unfold OnPair; infer_instance

theorem standingOnPair {text : Array Char} {start : Nat} {previous : Char} {atLineStart : Bool} :
    (standing text start previous atLineStart).OnPair ↔ PairAt text start := by
  constructor
  · rintro ⟨carriage, lineFeed⟩
    rcases Decidable.em (PairAt text start) with pair | single
    · exact pair
    · rw [standing, lastOfSingle single] at lineFeed
      exact absurd (carriage.symm.trans lineFeed) (by decide)
  · intro pair
    refine ⟨pair.1, ?_⟩
    rw [standing, lastOfPair pair]
    exact pair.2

theorem standingHasMore (text start previous atLineStart) :
    (standing text start previous atLineStart).hasMore ↔ start < text.size := by
  rw [hasMoreIff]
  exact lastIndexInside text start

theorem ofArrayStanding (text : Array Char) : ofArray text = standing text 0 sentinel true := by
  have flag : decide (lastIndex text 0 < text.size) = decide (0 < text.size) :=
    decide_eq_decide.mpr (lastIndexInside text 0)
  simp only [ofArray, standing, peekStart, flag]

theorem advanceStanding {text : Array Char} {start : Nat} (inside : start < text.size)
    (previous atLineStart) :
    (standing text start previous atLineStart).advance =
      standing text (lastIndex text start + 1) (rawAt text start)
        (isTerminator (rawAt text start)) := by
  have more := (standingHasMore text start previous atLineStart).mpr inside
  rw [advance, if_pos more]
  simp only [standing, peekStart, inside, decide_true, Bool.not_true, Bool.or_false]

theorem standingAtEnd (text previous atLineStart) :
    standing text text.size previous atLineStart =
      { text, index := text.size, previous, current := sentinel, next := sentinel, atLineStart
        atLineEnd := true } := by
  have here : rawAt text text.size = sentinel := rawAtOutside (Nat.le_refl _)
  have single : ¬PairAt text text.size := fun pair => by
    have inside := pairInside pair
    omega
  have behind : rawAt text (text.size + 1) = sentinel := rawAtOutside (Nat.le_succ _)
  simp [standing, lastOfSingle single, here, behind]

theorem advanceStandingPast (text previous atLineStart) :
    (standing text text.size previous atLineStart).advance =
      standing text text.size sentinel false := by
  have done : ¬(standing text text.size previous atLineStart).hasMore := by
    rw [standingHasMore]
    exact Nat.lt_irrefl _
  rw [advance, if_neg done, standingAtEnd, standingAtEnd]

end TextCursor.Cursor
