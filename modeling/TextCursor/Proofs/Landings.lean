import TextCursor.Proofs.Motions

/-! Where the motions that look for something stop. Both are loops without a bound, and both end
wherever they are begun. Where they end is said by the logical characters: behind the blanks from
here on, and on the first character of the next line. -/
namespace TextCursor
open Character (isBlank isTerminator)

namespace Logical

structure Run (kind : Char → Bool) (all : List Logical) (place count : Nat) : Prop where
  within : ∀ i < count, ∃ l, all[place + i]? = some l ∧ kind l.char
  ends : ∀ l, all[place + count]? = some l → kind l.char = false

/-- Where the line behind a place starts: behind the first terminator from the place on, at the end
if there is none, and one further past the end. -/
inductive NextStart (all : List Logical) (place : Nat) : Nat → Prop where
  | behind {last l} (here : place ≤ last) (found : all[last]? = some l) (ends : isTerminator l.char)
      (first : ∀ i m, place ≤ i → i < last → all[i]? = some m → isTerminator m.char = false) :
      NextStart all place (last + 1)
  | atEnd (inside : place < all.length)
      (unended : ∀ i m, place ≤ i → all[i]? = some m → isTerminator m.char = false) :
      NextStart all place all.length
  | past (outside : all.length ≤ place) : NextStart all place (place + 1)

theorem runNone {kind : Char → Bool} {all : List Logical} {place : Nat}
    (other : ∀ l, all[place]? = some l → kind l.char = false) : Run kind all place 0 where
  within i near := absurd near (Nat.not_lt_zero i)
  ends := other

theorem runMore {kind : Char → Bool} {all : List Logical} {place count : Nat} {l : Logical}
    (here : all[place]? = some l) (own : kind l.char) (behind : Run kind all (place + 1) count) :
    Run kind all place (count + 1) where
  within i near := by
    cases i with
    | zero => exact ⟨l, here, own⟩
    | succ i =>
      rw [Nat.add_comm i 1, ← Nat.add_assoc]
      exact behind.within i (Nat.lt_of_succ_lt_succ near)
  ends m found := by
    rw [Nat.add_comm count 1, ← Nat.add_assoc] at found
    exact behind.ends m found

theorem runStretch (kind : Char → Bool) (all : List Logical) (place : Nat) :
    Run kind all place (stretch kind all place) := by
  unfold stretch
  generalize left : all.drop place = rest
  induction rest generalizing place with
  | nil =>
    refine runNone fun l found => ?_
    have outside := List.drop_eq_nil_iff.mp left
    have inside := (List.getElem?_eq_some_iff.mp found).1
    omega
  | cons l rest ih =>
    have here : all[place]? = some l := by rw [← List.head?_drop, left, List.head?_cons]
    rw [List.takeWhile_cons]
    split
    · rename_i own
      exact runMore here own (ih (place + 1) (restCons left).2.1)
    · rename_i other
      refine runNone fun m found => ?_
      cases here.symm.trans found
      simpa using other

theorem runLength {kind : Char → Bool} {all : List Logical} {place short long : Nat}
    (first : Run kind all place short) (second : Run kind all place long) : long ≤ short := by
  refine Nat.le_of_not_lt fun further => ?_
  obtain ⟨l, found, own⟩ := second.within short further
  rw [first.ends l found] at own
  contradiction

theorem runExact (kind : Char → Bool) (all : List Logical) (place count : Nat) :
    Run kind all place count ↔ count = stretch kind all place := by
  have stretched := runStretch kind all place
  constructor
  · intro run
    exact Nat.le_antisymm (runLength stretched run) (runLength run stretched)
  · rintro rfl
    exact stretched

theorem runInside {kind : Char → Bool} {all : List Logical} {place count : Nat}
    (run : Run kind all place count) (inside : place ≤ all.length) : place + count ≤ all.length := by
  cases count with
  | zero => exact inside
  | succ count =>
    obtain ⟨l, found, _⟩ := run.within count (Nat.lt_succ_self count)
    exact (List.getElem?_eq_some_iff.mp found).1

theorem nextStartLine (all : List Logical) (place : Nat) : NextStart all place (nextLine all place) := by
  have run : Run (fun c => !isTerminator c) all place (unended all place) := runStretch _ all place
  have unended' : ∀ i m, place ≤ i → i < place + unended all place → all[i]? = some m →
      isTerminator m.char = false := by
    intro i m after before found
    obtain ⟨l, here, own⟩ := run.within (i - place) (by omega)
    rw [Nat.add_sub_cancel' after, found] at here
    cases here
    simpa using own
  rcases Nat.lt_or_ge place all.length with inside | outside
  · have bound := runInside run (Nat.le_of_lt inside)
    rcases Nat.lt_or_ge (place + unended all place) all.length with ended | last
    · have here : nextLine all place = place + unended all place + 1 := by
        unfold nextLine
        omega
      have found : all[place + unended all place]? = some all[place + unended all place] :=
        List.getElem?_eq_getElem ended
      rw [here]
      exact .behind (Nat.le_add_right _ _) found (by simpa using run.ends _ found) unended'
    · have here : nextLine all place = all.length := by
        unfold nextLine
        omega
      rw [here]
      refine .atEnd inside fun i m after found => ?_
      have within := (List.getElem?_eq_some_iff.mp found).1
      exact unended' i m after (by omega) found
  · have here : nextLine all place = place + 1 := by
      unfold nextLine
      omega
    rw [here]
    exact .past outside

theorem lineLength {all : List Logical} {place last : Nat} (here : place ≤ last)
    (bound : last ≤ all.length)
    (first : ∀ i m, place ≤ i → i < last → all[i]? = some m → isTerminator m.char = false)
    (ends : ∀ m, all[last]? = some m → isTerminator m.char) :
    place + unended all place = last := by
  have run : Run (fun c => !isTerminator c) all place (last - place) := by
    refine ⟨fun i near => ?_, fun m found => ?_⟩
    · have own : all[place + i]? = some all[place + i] := List.getElem?_eq_getElem (by omega)
      exact ⟨_, own, by simpa using first _ _ (by omega) (by omega) own⟩
    · rw [Nat.add_sub_cancel' here] at found
      simpa using ends m found
  have length : last - place = unended all place := (runExact _ _ _ _).mp run
  omega

theorem nextStartExact (all : List Logical) (place start : Nat) :
    NextStart all place start ↔ start = nextLine all place := by
  constructor
  · intro next
    unfold nextLine
    cases next with
    | behind here found ends first =>
      have inside := (List.getElem?_eq_some_iff.mp found).1
      have length := lineLength here (Nat.le_of_lt inside) first fun m same => by
        cases found.symm.trans same
        exact ends
      omega
    | atEnd inside unended' =>
      have length := lineLength (Nat.le_of_lt inside) (Nat.le_refl _)
        (fun i m after _ found => unended' i m after found) (by simp)
      omega
    | past outside => omega
  · rintro rfl
    exact nextStartLine all place

end Logical

namespace Cursor

theorem skipBlanksRounds (c : Cursor) : ∃ rounds,
    Rounds (fun c => isBlank c.current) advance c rounds c.skipBlanks.2 ∧
      rounds.length = c.skipBlanks.1 := by
  fun_induction skipBlanks c with
  | case1 c blank rest ih =>
    obtain ⟨rounds, ran, count⟩ := ih
    exact ⟨c :: rounds, .round blank ran, by rw [List.length_cons, count]⟩
  | case2 c stop => exact ⟨[], .ended (by simpa using stop), rfl⟩

theorem nextLineRounds (c : Cursor) : ∃ rounds,
    Rounds (fun c => !(c.atLineStart || !c.hasMore)) advance c.advance rounds c.nextLine := by
  fun_induction nextLine c with
  | case1 c stop => exact ⟨[], .ended (congrArg Bool.not stop)⟩
  | case2 c goesOn ih =>
    obtain ⟨rounds, ran⟩ := ih
    exact ⟨c.advance :: rounds, .round (by simpa using goesOn) ran⟩

theorem motionsLand (text : String) :
    let all := Logical.ofText text.toList
    let after (moves : Nat) := (ofText text).advanceBy moves
    (∀ motions : List Motion, ∃ moves, motions.foldl move (ofText text) = after moves) ∧
    ∀ moves,
      (∃ count, (∀ n, Logical.Run isBlank all moves n ↔ n = count) ∧
        (after moves).skipBlanks = (count, after (moves + count)) ∧
        ∃ rounds, rounds.length = count ∧
          Rounds (fun c => isBlank c.current) advance (after moves) rounds (after (moves + count))) ∧
      ∃ start, (∀ n, Logical.NextStart all moves n ↔ n = start) ∧
        (after moves).nextLine = after start ∧
        ∃ rounds, Rounds (fun c => !(c.atLineStart || !c.hasMore)) advance (after moves).advance
          rounds (after start) := by
  intro all after
  have here (moves : Nat) : after moves = placed text.toList moves := advanceByOfText text moves
  refine ⟨?walk, fun moves => ⟨?blanks, ?line⟩⟩
  case walk =>
    intro motions
    exact ⟨_, (walkOfText text motions).trans (here _).symm⟩
  case blanks =>
    have landed : (after moves).skipBlanks =
        (Logical.blanks all moves, after (moves + Logical.blanks all moves)) := by
      rw [here, here, skipBlanksPlaced]
    obtain ⟨rounds, ran, count⟩ := skipBlanksRounds (after moves)
    rw [landed] at ran count
    exact ⟨_, Logical.runExact isBlank all moves, landed, rounds, count, ran⟩
  case line =>
    have landed : (after moves).nextLine = after (Logical.nextLine all moves) := by
      rw [here, here, nextLinePlaced]
    obtain ⟨rounds, ran⟩ := nextLineRounds (after moves)
    rw [landed] at ran
    exact ⟨_, Logical.nextStartExact all moves, landed, rounds, ran⟩

end Cursor
end TextCursor
