import TextCursor.Line
import TextCursor.Proofs.Lookups

/-! A text is divided into lines a line at a time, and cutting it is the only way. The statistics that
are counted along a walk are those of the lines: wherever the walk stands, what is counted already and
the lines that are left tell the outcome; the line it stands in, unless it is at its start, has been
counted, and the characters of it that are behind as well. -/
namespace TextCursor.Line
open Character (isTerminator)

def Plain (body : List Char) : Prop := ∀ c ∈ body, isTerminator c = false

def Ends (terminator rest : List Char) : Prop :=
  terminator = ['\r', '\n'] ∨ terminator = ['\n'] ∨
    terminator = ['\r'] ∧ rest.head? ≠ some '\n'

inductive Divides : List Char → List Line → Prop where
  | nil : Divides [] []
  | last {body} (some : body ≠ []) (plain : Plain body) : Divides body [⟨body, []⟩]
  | ended {body terminator rest lines} (plain : Plain body) (ends : Ends terminator rest)
      (behind : Divides rest lines) :
      Divides (body ++ terminator ++ rest) (⟨body, terminator⟩ :: lines)

theorem cutEnds {terminator rest : List Char} (ends : Ends terminator rest) :
    cut (terminator ++ rest) = ⟨[], terminator⟩ :: cut rest := by
  rcases ends with rfl | rfl | ⟨rfl, alone⟩
  · exact cutPair rest
  · exact cutSingle (by simp) rfl
  · exact cutSingle (fun pair => alone pair.2) rfl

theorem cutPlain {body : List Char} (plain : Plain body) {rest terminator : List Char}
    {lines : List Line} (here : cut rest = ⟨[], terminator⟩ :: lines) :
    cut (body ++ rest) = ⟨body, terminator⟩ :: lines := by
  induction body with
  | nil => exact here
  | cons c body ih =>
    have behind := ih fun d member => plain d (List.mem_cons_of_mem c member)
    rw [List.cons_append, cutInner (plain c List.mem_cons_self), behind]
    rfl

theorem cutLast {body : List Char} (some : body ≠ []) (plain : Plain body) :
    cut body = [⟨body, []⟩] := by
  induction body with
  | nil => contradiction
  | cons c body ih =>
    rw [cutInner (plain c List.mem_cons_self)]
    cases body with
    | nil => rfl
    | cons d rest =>
      rw [ih (List.cons_ne_nil d rest) fun d member => plain d (List.mem_cons_of_mem c member)]
      rfl

theorem cutOfDivides {text : List Char} {lines : List Line} (divides : Divides text lines) :
    cut text = lines := by
  induction divides with
  | nil => rfl
  | last some plain => exact cutLast some plain
  | ended plain ends behind ih => rw [List.append_assoc, cutPlain plain (cutEnds ends), ih]

theorem dividesExtend {c : Char} (inner : isTerminator c = false) {text : List Char}
    {lines : List Line} (divides : Divides text lines) : Divides (c :: text) (extend c lines) := by
  have grow {body : List Char} (plain : Plain body) : Plain (c :: body) := by
    intro d member
    rcases List.mem_cons.mp member with rfl | inside
    · exact inner
    · exact plain d inside
  cases divides with
  | nil => exact .last (List.cons_ne_nil c []) (grow (by simp [Plain]))
  | last some plain => exact .last (List.cons_ne_nil c _) (grow plain)
  | ended plain ends behind => exact .ended (grow plain) ends behind

theorem endsSingle {c : Char} (ends : isTerminator c) {rest : List Char}
    (alone : c = '\r' → rest.head? ≠ some '\n') : Ends [c] rest := by
  simp only [isTerminator, Bool.or_eq_true, beq_iff_eq] at ends
  rcases ends with rfl | rfl
  · exact .inr (.inr ⟨rfl, alone rfl⟩)
  · exact .inr (.inl rfl)

theorem cutDivides (text : List Char) : Divides text (cut text) := by
  have none : Plain [] := by simp [Plain]
  fun_induction cut text with
  | case1 => exact .nil
  | case2 c ends => exact .ended none (endsSingle ends (by simp)) .nil
  | case3 c inner => exact dividesExtend (by simpa using inner) .nil
  | case4 c d rest pair ih =>
    rw [pair.1, pair.2]
    exact .ended none (.inl rfl) ih
  | case5 c d rest single ends ih =>
    refine .ended none (endsSingle ends ?_) ih
    intro carriage lineFeed
    exact single ⟨carriage, Option.some.inj lineFeed⟩
  | case6 c d rest single inner ih => exact dividesExtend (by simpa using inner) ih

theorem dividesExact (text : List Char) (lines : List Line) :
    Divides text lines ↔ lines = cut text := by
  constructor
  · intro divides
    exact (cutOfDivides divides).symm
  · rintro rfl
    exact cutDivides text

end TextCursor.Line

namespace TextCursor
open Character (sentinel isTerminator)

namespace Summary

def lengths (behind : Nat) : List Line → List Nat
  | [] => []
  | l :: rest => (behind + l.body.length) :: rest.map fun l => l.body.length

theorem lengthsFresh (lines : List Line) : lengths 0 lines = lines.map fun l => l.body.length := by
  cases lines <;> simp [lengths]

namespace Tally

def behind (t : Tally) (fresh : Bool) : Nat := if fresh then 0 else t.lineLength

def outcome (t : Tally) (fresh : Bool) (rest : List Char) : Summary :=
  let uncounted := if fresh then Line.cut rest else (Line.cut rest).tail
  { logicalChars := t.summary.logicalChars + (rest.length - Logical.pairs rest)
    lines := t.summary.lines + uncounted.length
    blankLines := t.summary.blankLines + uncounted.countP Line.isBlank
    pairs := t.summary.pairs + Logical.pairs rest
    longestLine := (lengths (t.behind fresh) (Line.cut rest)).foldl max t.summary.longestLine }

def inner (t : Tally) (fresh : Bool) : Tally :=
  { summary := { t.summary with
      logicalChars := t.summary.logicalChars + 1
      lines := t.summary.lines + if fresh then 1 else 0
      longestLine := max t.summary.longestLine (t.behind fresh + 1) }
    lineLength := t.behind fresh + 1 }

def ended (t : Tally) (fresh pair : Bool) : Tally :=
  { summary := { t.summary with
      logicalChars := t.summary.logicalChars + 1
      lines := t.summary.lines + if fresh then 1 else 0
      blankLines := t.summary.blankLines + if fresh then 1 else 0
      pairs := t.summary.pairs + if pair then 1 else 0 }
    lineLength := t.behind fresh }

theorem stepInner (t : Tally) {c : Cursor} (plain : isTerminator c.current = false)
    (goesOn : c.atLineEnd = false) : t.step c = t.inner c.atLineStart := by
  cases fresh : c.atLineStart <;>
    simp [step, startLine, countChar, inner, behind, plain, goesOn, fresh]

theorem stepEnded (t : Tally) {c : Cursor} (ends : isTerminator c.current) (stop : c.atLineEnd) :
    t.step c = t.ended c.atLineStart (c.matchesChar '\r' && c.charAt 0 == '\n') := by
  cases fresh : c.atLineStart <;> cases pair : c.matchesChar '\r' && c.charAt 0 == '\n' <;>
    simp [step, startLine, countChar, ended, behind, ends, stop, fresh, pair]

theorem outcomeNil (t : Tally) (fresh : Bool) : t.outcome fresh [] = t.summary := by
  cases fresh <;> simp [outcome, Line.cutNil, lengths, Logical.pairs]

theorem pairsBound (rest : List Char) : Logical.pairs rest ≤ rest.length := by
  have total := Logical.lengthPairs 0 rest
  omega

theorem outcomeInner (t : Tally) (fresh : Bool) {c : Char} (plain : isTerminator c = false)
    (rest : List Char) : (t.inner fresh).outcome false rest = t.outcome fresh (c :: rest) := by
  have alone : ¬(c = '\r' ∧ rest.head? = some '\n') := by
    rintro ⟨rfl, _⟩
    contradiction
  have bound := pairsBound rest
  simp only [outcome, Line.cutInner plain, Logical.pairsSingle alone, List.length_cons,
    Summary.mk.injEq]
  refine ⟨?logicalChars, ?lines, ?blankLines, rfl, ?longestLine⟩
  case logicalChars =>
    simp only [inner]
    omega
  case lines =>
    cases fresh <;> cases Line.cut rest <;> simp [inner, Line.extend, Nat.add_comm,
      Nat.add_left_comm]
  case blankLines =>
    cases fresh <;> cases Line.cut rest <;> simp [inner, Line.extend, Line.isBlank]
  case longestLine =>
    cases Line.cut rest with
    | nil => simp [lengths, Line.extend, inner]
    | cons l lines =>
      have same : max (max t.summary.longestLine (t.behind fresh + 1))
            ((t.inner fresh).behind false + l.body.length) =
          max t.summary.longestLine (t.behind fresh + (l.body.length + 1)) := by
        simp only [inner, behind, Bool.false_eq_true, if_false]
        omega
      simp only [lengths, Line.extend, List.foldl_cons, List.length_cons, inner] at same ⊢
      rw [same]

theorem outcomeEnded (t : Tally) {fresh pair : Bool} {text rest terminator : List Char}
    (measured : t.behind fresh ≤ t.summary.longestLine)
    (cut : Line.cut text = ⟨[], terminator⟩ :: Line.cut rest)
    (pairs : Logical.pairs text = Logical.pairs rest + if pair then 1 else 0)
    (length : text.length = rest.length + 1 + if pair then 1 else 0) :
    (t.ended fresh pair).outcome true rest = t.outcome fresh text := by
  have bound := pairsBound rest
  simp only [outcome, cut, pairs, length, Summary.mk.injEq]
  refine ⟨?logicalChars, ?lines, ?blankLines, ?pairs, ?longestLine⟩
  case logicalChars =>
    simp only [ended]
    omega
  case lines =>
    cases fresh with
    | false => rfl
    | true =>
      simp only [ended, if_true, List.length_cons]
      omega
  case blankLines =>
    have blank : (Line.mk [] terminator :: Line.cut rest).countP Line.isBlank =
        (Line.cut rest).countP Line.isBlank + 1 := List.countP_cons_of_pos rfl
    cases fresh with
    | false => rfl
    | true =>
      simp only [ended, if_true, blank]
      omega
  case pairs =>
    simp only [ended]
    omega
  case longestLine =>
    have fresh' : (t.ended fresh pair).behind true = 0 := rfl
    rw [fresh', lengthsFresh, lengths, List.foldl_cons, List.length_nil, Nat.add_zero,
      Nat.max_eq_left measured]
    rfl

theorem outcomeSingle (t : Tally) {fresh : Bool} (measured : t.behind fresh ≤ t.summary.longestLine)
    {c : Char} (ends : isTerminator c) {rest : List Char}
    (alone : ¬(c = '\r' ∧ rest.head? = some '\n')) :
    (t.ended fresh false).outcome true rest = t.outcome fresh (c :: rest) :=
  outcomeEnded t measured (Line.cutSingle alone ends) (Logical.pairsSingle alone) rfl

theorem outcomePair (t : Tally) {fresh : Bool} (measured : t.behind fresh ≤ t.summary.longestLine)
    (rest : List Char) :
    (t.ended fresh true).outcome true rest = t.outcome fresh ('\r' :: '\n' :: rest) :=
  outcomeEnded t measured (Line.cutPair rest) (Logical.pairsPair rest) rfl

theorem pairSeen (text : Array Char) (start : Nat) :
    ('\r' == Cursor.rawAt text start &&
        Cursor.rawAt text (Cursor.lastIndex text start) == '\n') =
      decide (Cursor.PairAt text start) := by
  rcases Decidable.em (Cursor.PairAt text start) with pair | single
  · rw [decide_eq_true pair, Cursor.lastOfPair pair, pair.1, pair.2]
    rfl
  · rw [decide_eq_false single, Cursor.lastOfSingle single, Bool.and_eq_false_imp]
    intro carriage
    rw [← eq_of_beq carriage]
    rfl

section
variable {text : List Char} {start : Nat} (previous : Char) (fresh : Bool) (t : Tally)

theorem stepStandingInner (inside : start < text.length)
    (plain : isTerminator (Cursor.rawAt text.toArray start) = false) :
    t.step (Cursor.standing text.toArray start previous fresh) = t.inner fresh := by
  refine stepInner t plain ?_
  simp [Cursor.standing, plain, inside]

theorem stepStandingEnded (held : text.length ≤ Offset.reach) (inside : start < text.length)
    (ends : isTerminator (Cursor.rawAt text.toArray start)) :
    t.step (Cursor.standing text.toArray start previous fresh) =
      t.ended fresh (decide (Cursor.PairAt text.toArray start)) := by
  have last := (Cursor.lastIndexInside text.toArray start).mpr (by simpa using inside)
  rw [List.size_toArray] at last
  have here : (Cursor.standing text.toArray start previous fresh).charAt 0 =
      Cursor.rawAt text.toArray (Cursor.lastIndex text.toArray start) :=
    Cursor.charAtAhead (Nat.le_trans (Nat.le_of_lt last) held) (by decide)
  rw [stepEnded t ends (by simp [Cursor.standing, ends]), here]
  exact congrArg (t.ended fresh) (pairSeen text.toArray start)

end

/- The measure of a line that has begun is among the lengths seen. -/
theorem foldStanding {text : List Char} (held : text.length ≤ Offset.reach) (start : Nat)
    (previous : Char) (fresh : Bool) (t : Tally)
    (measured : t.behind fresh ≤ t.summary.longestLine) :
    ((Cursor.standing text.toArray start previous fresh).fold step t).summary =
      t.outcome fresh (text.drop start) := by
  generalize left : text.length - start = count
  induction count using Nat.strongRecOn generalizing start previous fresh t with
  | ind count ih =>
    rw [Cursor.fold]
    split
    · rename_i more
      have inside : start < text.length := by simpa using (Cursor.standingHasMore ..).mp more
      have further := Cursor.startLeLast text.toArray start
      rw [Cursor.advanceStanding (by simpa using inside)]
      cases ends : isTerminator (Cursor.rawAt text.toArray start) with
      | false =>
        have single : ¬Cursor.PairAt text.toArray start := by
          rintro ⟨carriage, _⟩
          rw [carriage] at ends
          contradiction
        have measured' : (t.inner fresh).behind false ≤ (t.inner fresh).summary.longestLine :=
          Nat.le_max_right _ _
        rw [stepStandingInner previous fresh t inside ends, ih _ (by omega) _ _ _ _ measured' rfl,
          outcomeInner t fresh ends, Cursor.lastOfSingle single,
          (Cursor.dropSingle inside single).1]
      | true =>
        rw [stepStandingEnded previous fresh t held inside ends,
          ih _ (by omega) _ _ _ _ (Nat.zero_le _) rfl]
        rcases Decidable.em (Cursor.PairAt text.toArray start) with pair | single
        · rw [decide_eq_true pair, outcomePair t measured, Cursor.lastOfPair pair,
            Cursor.dropPair pair]
        · obtain ⟨here, alone⟩ := Cursor.dropSingle inside single
          rw [decide_eq_false single, Cursor.lastOfSingle single, outcomeSingle t measured ends alone,
            here]
    · rename_i done
      rw [Cursor.standingHasMore, List.size_toArray, Nat.not_lt] at done
      rw [List.drop_of_length_le done, outcomeNil]

end Tally

/- The LF of a pair is found by its offset, which reaches over whatever is held in memory. -/
theorem ofTextOfLines {text : String} (held : text.length ≤ Offset.reach) :
    ofText text = ofLines text.toList := by
  rw [← String.length_toList] at held
  rw [ofText, Cursor.ofText, Cursor.ofArrayStanding,
    Tally.foldStanding held 0 sentinel true {} (Nat.zero_le _)]
  simp [Tally.outcome, ofLines, Tally.behind, lengthsFresh]

theorem countedFromLines {text : String} (held : text.length ≤ Offset.reach) :
    (∀ lines, Line.Divides text.toList lines ↔ lines = Line.cut text.toList) ∧
    ofText text = ofLines text.toList :=
  ⟨Line.dividesExact text.toList, ofTextOfLines held⟩

theorem countedFromMixedLines :
    "ab\r\n\r\x00\n\n\r\r\ncde".length ≤ Offset.reach ∧
    (∀ lines, Line.Divides "ab\r\n\r\x00\n\n\r\r\ncde".toList lines ↔
      lines = Line.cut "ab\r\n\r\x00\n\n\r\r\ncde".toList) ∧
    ofText "ab\r\n\r\x00\n\n\r\r\ncde" = ofLines "ab\r\n\r\x00\n\n\r\r\ncde".toList :=
  ⟨by decide, countedFromLines (by decide)⟩

end Summary
end TextCursor
