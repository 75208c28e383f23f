import TextCursor.Proofs.Landings

/-! When two walks over one text have come to the same state. The place alone decides, up to the
one behind which nothing changes any more: that is one move past the end, or the end itself if the
text ends in a NUL, which looks like nothing. -/
namespace TextCursor
open Character (sentinel isTerminator)

namespace Cursor
variable {c : Cursor} {motion : Motion} {motions : List Motion} {count other : Nat}

theorem roundsLead {again : Cursor → Bool} {rounds : List Cursor} {last : Cursor}
    (ran : Rounds again advance c rounds last) : c.advanceBy rounds.length = last := by
  induction ran with
  | ended stop => rfl
  | round goesOn rest ih => exact ih

theorem makesMoves (made : c.Makes motion count) : c.move motion = c.advanceBy count := by
  cases made with
  | advance => rfl
  | advanceBy => rfl
  | skipBlanks ran =>
    obtain ⟨_, own, _⟩ := skipBlanksRounds c
    exact (ran.once own).2.trans (roundsLead ran).symm
  | nextLine ran =>
    obtain ⟨_, own⟩ := nextLineRounds c
    exact (ran.once own).2.trans (roundsLead ran).symm

theorem makesSome (c : Cursor) (motion : Motion) : ∃ count, c.Makes motion count := by
  cases motion with
  | advance => exact ⟨1, .advance⟩
  | advanceBy count => exact ⟨count, .advanceBy count⟩
  | skipBlanks =>
    obtain ⟨_, ran, _⟩ := skipBlanksRounds c
    exact ⟨_, .skipBlanks ran⟩
  | nextLine =>
    obtain ⟨_, ran⟩ := nextLineRounds c
    exact ⟨_, .nextLine ran⟩

theorem makesOnce (made : c.Makes motion count) (again : c.Makes motion other) : other = count := by
  cases made with
  | advance =>
    cases again
    rfl
  | advanceBy =>
    cases again
    rfl
  | skipBlanks ran =>
    cases again with
    | skipBlanks own => rw [(ran.once own).1]
  | nextLine ran =>
    cases again with
    | nextLine own => rw [(ran.once own).1]

theorem advanceByAdd (c : Cursor) (count further : Nat) :
    c.advanceBy (count + further) = (c.advanceBy count).advanceBy further := by
  induction count generalizing c with
  | zero =>
    rw [Nat.zero_add]
    rfl
  | succ count ih =>
    rw [Nat.succ_add]
    exact ih c.advance

theorem amountsMoves (amounts : c.Amounts motions count) :
    motions.foldl move c = c.advanceBy count := by
  induction amounts with
  | nothing => rfl
  | motion first behind ih => rw [List.foldl_cons, ih, makesMoves first, advanceByAdd]

theorem amountsSome (c : Cursor) (motions : List Motion) : ∃ count, c.Amounts motions count := by
  induction motions generalizing c with
  | nil => exact ⟨0, .nothing⟩
  | cons motion motions ih =>
    obtain ⟨count, first⟩ := makesSome c motion
    obtain ⟨further, behind⟩ := ih (c.move motion)
    exact ⟨_, .motion first behind⟩

theorem amountsOnce (amounts : c.Amounts motions count) (again : c.Amounts motions other) :
    other = count := by
  induction amounts generalizing other with
  | nothing =>
    cases again
    rfl
  | motion first behind ih =>
    cases again with
    | motion own further => rw [makesOnce first own, ih further]

end Cursor

namespace Logical

theorem numberFilled {text : List Char} (filled : text ≠ []) (index : Nat) :
    number index text ≠ [] := by
  fun_cases number index text with
  | case1 => contradiction
  | case2 => exact List.cons_ne_nil _ _
  | case3 => exact List.cons_ne_nil _ _
  | case4 => exact List.cons_ne_nil _ _

theorem lastBehind (l : Logical) {text : List Char} (filled : text ≠ []) (index : Nat) :
    (l :: number index text).getLast? = (number index text).getLast? := by
  obtain ⟨m, more, same⟩ := List.exists_cons_of_ne_nil (numberFilled filled index)
  rw [same, List.getLast?_cons_cons]

/- A pair at the end is shown as its CR and is in the text an LF, and neither is a NUL. -/
theorem lastNul (index : Nat) (text : List Char) :
    (number index text).getLast?.map char = some sentinel ↔ text.getLast? = some sentinel := by
  fun_induction number index text with
  | case1 => simp
  | case2 index c => simp
  | case3 index c d rest pair ih =>
    rw [List.getLast?_cons_cons]
    cases rest with
    | nil => simp [pair.1, pair.2, number, sentinel]
    | cons e rest => rw [lastBehind _ (List.cons_ne_nil e rest), List.getLast?_cons_cons, ih]
  | case4 index c d rest single ih =>
    rw [lastBehind _ (List.cons_ne_nil d rest), List.getLast?_cons_cons, ih]

theorem beforeEnd {text : List Char} (filled : 0 < (ofText text).length) :
    before (ofText text) (ofText text).length = sentinel ↔ text.getLast? = some sentinel := by
  rw [← lastNul 0 text, ← ofText, List.getLast?_eq_getElem?]
  generalize ofText text = all at filled
  obtain ⟨place, last⟩ := Nat.exists_eq_add_of_lt filled
  rw [last, Nat.zero_add, before, slot, Nat.add_sub_cancel, List.getElem?_eq_getElem (by omega)]
  simp

def settles (text : List Char) : Nat :=
  let all := ofText text
  if 0 < all.length ∧ text.getLast? = some sentinel then all.length else all.length + 1

end Logical

namespace Cursor
open Logical (before settles)

theorem indexLeAdvance (c : Cursor) : c.index ≤ c.advance.index := by
  by_cases more : c.hasMore
  · exact Nat.le_of_lt (indexLtAdvance more)
  · exact Nat.le_of_eq (advanceIndexAtEnd more).symm

theorem indexBefore {text : List Char} {place later : Nat}
    (inside : place < (Logical.ofText text).length) (further : place < later) :
    (placed text place).index < (placed text later).index := by
  induction further with
  | refl =>
    rw [← advancePlaced]
    exact indexLtAdvance ((placedHasMore text place).mpr inside)
  | step _ ih =>
    rw [← advancePlaced]
    exact Nat.lt_of_lt_of_le ih (indexLeAdvance _)

theorem placedPast {text : List Char} {place : Nat} (past : (Logical.ofText text).length < place) :
    placed text place =
      { text := text.toArray
        index := text.length
        previous := sentinel
        current := sentinel
        next := sentinel
        atLineStart := false
        atLineEnd := true } := by
  have moved : decide (place = 0) = false := decide_eq_false (Nat.ne_of_gt (Nat.zero_lt_of_lt past))
  rw [placedOutside (Nat.le_of_lt past), Logical.beforePast past, moved]
  rfl

theorem placedSettled {text : List Char} {place : Nat} (settled : settles text ≤ place) :
    placed text place = placed text ((Logical.ofText text).length + 1) := by
  rcases Nat.lt_or_ge (Logical.ofText text).length place with past | inside
  · rw [placedPast past, placedPast (Nat.lt_succ_self _)]
  · simp only [settles] at settled
    split at settled
    · rename_i nul
      have here : place = (Logical.ofText text).length := Nat.le_antisymm inside settled
      have moved : decide ((Logical.ofText text).length = 0) = false :=
        decide_eq_false (Nat.ne_of_gt nul.1)
      rw [here, placedPast (Nat.lt_succ_self _), placedOutside (Nat.le_refl _),
        (Logical.beforeEnd nul.1).mpr nul.2, moved]
      rfl
    · omega

theorem placedApart {text : List Char} {place later : Nat} (unsettled : place < settles text)
    (further : place < later) : placed text place ≠ placed text later := by
  intro same
  rcases Nat.lt_or_ge place (Logical.ofText text).length with inside | outside
  · have index := congrArg Cursor.index same
    exact Nat.ne_of_lt (indexBefore inside further) index
  · simp only [settles] at unsettled
    split at unsettled
    · omega
    · rename_i noNul
      have here : place = (Logical.ofText text).length := by omega
      subst here
      rw [placedOutside (Nat.le_refl _), placedPast further] at same
      obtain ⟨-, -, behind, -, -, start, -⟩ := Cursor.mk.inj same
      rw [Bool.or_eq_false_iff, decide_eq_false_iff_not] at start
      have filled := Nat.pos_of_ne_zero start.1
      exact noNul ⟨filled, (Logical.beforeEnd filled).mp behind⟩

theorem settlesExact (text : List Char) (place later : Nat) :
    placed text place = placed text later ↔ min place (settles text) = min later (settles text) := by
  constructor
  · intro same
    rcases Nat.lt_trichotomy place later with before | rfl | behind
    · have settled := mt (placedApart · before) (not_not_intro same)
      omega
    · rfl
    · have settled := mt (placedApart · behind) (not_not_intro same.symm)
      omega
  · intro same
    have either : place = later ∨ settles text ≤ place ∧ settles text ≤ later := by omega
    rcases either with rfl | ⟨settled, too⟩
    · rfl
    · rw [placedSettled settled, placedSettled too]

theorem placedIndex {text : List Char} {place other : Nat} (more : (placed text place).hasMore)
    (same : (placed text place).index = (placed text other).index) : place = other := by
  have inside := (placedHasMore text place).mp more
  rcases Nat.lt_trichotomy place other with before | rfl | behind
  · exact absurd same (Nat.ne_of_lt (indexBefore inside before))
  · rfl
  · exact absurd same (Nat.ne_of_gt (indexBefore (Nat.lt_trans behind inside) behind))

theorem walkedOn (text : List Char) (place : Nat) (motions : List Motion) :
    ∃ moves, motions.foldl move (placed text place) = placed text (place + moves) := by
  obtain ⟨moves, amounts⟩ := amountsSome (placed text place) motions
  exact ⟨moves, by rw [amountsMoves amounts, advanceByPlaced]⟩

theorem onePlaceOneState (text : String) :
    let start := ofText text
    let settled := settles text.toList
    let after (motions : List Motion) := motions.foldl move start
    (∀ motions, ∃ moves, after motions = start.advanceBy moves ∧
      ∀ n, start.Amounts motions n ↔ n = moves) ∧
    (∀ first second m n, start.Amounts first m → start.Amounts second n →
      (after first = after second ↔ min m settled = min n settled)) ∧
    (∀ first second, (after first).hasMore → (after first).index = (after second).index →
      after first = after second) ∧
    (∀ motions further : List Motion, ¬(after motions).hasMore →
      further.foldl move (after motions).advance = (after motions).advance) ∧
    ∀ motions leaving further : List Motion,
      further.foldl move (leaving.foldl move (after motions)) = after motions →
      leaving.foldl move (after motions) = after motions := by
  intro start settled after
  have place (motions : List Motion) : ∃ place, after motions = placed text.toList place :=
    ⟨_, walkOfText text motions⟩
  refine ⟨?number, ?state, ?index, ?stable, ?left⟩
  case number =>
    intro motions
    obtain ⟨moves, own⟩ := amountsSome start motions
    refine ⟨moves, amountsMoves own, fun n => ⟨amountsOnce own, ?_⟩⟩
    rintro rfl
    exact own
  case state =>
    intro first second m n one other
    have here : after first = placed text.toList m := (amountsMoves one).trans (advanceByOfText text m)
    have there : after second = placed text.toList n :=
      (amountsMoves other).trans (advanceByOfText text n)
    rw [here, there]
    exact settlesExact text.toList m n
  case index =>
    intro first second more same
    obtain ⟨here, one⟩ := place first
    obtain ⟨there, other⟩ := place second
    rw [one, other] at same ⊢
    rw [placedIndex (one ▸ more) same]
  case stable =>
    intro motions further done
    obtain ⟨here, own⟩ := place motions
    rw [own, placedHasMore, Nat.not_lt] at done
    obtain ⟨moves, walked⟩ := walkedOn text.toList (here + 1) further
    have bound : settles text.toList ≤ here + 1 := by
      simp only [settles]
      split <;> omega
    rw [own, advancePlaced, walked, placedSettled bound,
      placedSettled (Nat.le_trans bound (Nat.le_add_right _ moves))]
  case left =>
    intro motions leaving further back
    obtain ⟨here, own⟩ := place motions
    obtain ⟨gone, leads⟩ := walkedOn text.toList here leaving
    obtain ⟨moves, walked⟩ := walkedOn text.toList (here + gone) further
    rw [own, leads] at back ⊢
    rw [walked, settlesExact] at back
    rw [settlesExact]
    omega

/- Behind a pair and a NUL, where the end and what is past it look the same. -/
theorem onePlaceOneStateAfterNul :
    let text := "a\r\n\x00"
    let start := ofText text
    let line := [Motion.nextLine, .skipBlanks, .advance]
    start.Amounts line 3 ∧ start.Amounts [.advanceBy 7] 7 ∧ start.Amounts [.advanceBy 2] 2 ∧
    settles text.toList = 3 ∧
    line.foldl move start = [Motion.advanceBy 7].foldl move start ∧
    line.foldl move start ≠ [Motion.advanceBy 2].foldl move start := by
  intro text start line
  have next : start.Makes .nextLine 2 := .nextLine (.round (by decide) (.ended (by decide)))
  have blanks : (start.move .nextLine).Makes .skipBlanks 0 := by
    rw [makesMoves next]
    exact .skipBlanks (.ended (by decide))
  have three : start.Amounts line 3 := .motion next (.motion blanks (.motion .advance .nothing))
  have jumps (moves : Nat) : start.Amounts [.advanceBy moves] moves :=
    .motion (.advanceBy moves) .nothing
  have settled : settles text.toList = 3 := by decide
  have states := (onePlaceOneState text).2.1
  have same := (states _ _ _ _ three (jumps 7)).mpr (by rw [settled]; rfl)
  have apart := mt (states _ _ _ _ three (jumps 2)).mp (by rw [settled]; decide)
  exact ⟨three, jumps 7, jumps 2, settled, same, apart⟩

end Cursor
end TextCursor
