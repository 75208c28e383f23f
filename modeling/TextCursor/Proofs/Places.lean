import TextCursor.Proofs.Standing

/-! The places of a text are its logical characters in order, and behind them the end. After
`place` moves a cursor stands where the logical characters alone say, pairs and NULs included. -/
namespace TextCursor
open Character (sentinel isTerminator)

namespace Logical
open Cursor (rawAt lastIndex PairAt)

def slot (all : List Logical) (place : Nat) : Char := (all[place]?.map char).getD sentinel

theorem slotOutside {all : List Logical} {place : Nat} (outside : all.length ≤ place) :
    slot all place = sentinel := by
  simp [slot, outside]

def before (all : List Logical) : Nat → Char
  | 0 => sentinel
  | place + 1 => slot all place

theorem beforePast {all : List Logical} {place : Nat} (past : all.length < place) :
    before all place = sentinel := by
  cases place with
  | zero => contradiction
  | succ place => exact slotOutside (Nat.le_of_lt_succ past)

def begins (text : Array Char) : Nat → Nat
  | 0 => 0
  | place + 1 => min (lastIndex text (begins text place) + 1) text.size

theorem beginsInside (text : Array Char) (place : Nat) : begins text place ≤ text.size := by
  cases place with
  | zero => exact Nat.zero_le _
  | succ place => exact Nat.min_le_right _ _

theorem numberFrom {text : List Char} {start : Nat} (inside : start < text.length) :
    number start (text.drop start) =
      ⟨rawAt text.toArray start, lastIndex text.toArray start⟩ ::
        number (lastIndex text.toArray start + 1)
          (text.drop (lastIndex text.toArray start + 1)) := by
  rcases Decidable.em (PairAt text.toArray start) with pair | single
  · rw [Cursor.dropPair pair, numberPair, pair.1, Cursor.lastOfPair pair]
  · obtain ⟨here, alone⟩ := Cursor.dropSingle inside single
    rw [here, numberSingle alone, Cursor.lastOfSingle single]

theorem numberBegins (text : List Char) (place : Nat) :
    number (begins text.toArray place) (text.drop (begins text.toArray place)) =
      (ofText text).drop place := by
  induction place with
  | zero => rfl
  | succ place ih =>
    have next : (ofText text).drop (place + 1) = ((ofText text).drop place).tail := by simp
    rw [next, ← ih]
    by_cases inside : begins text.toArray place < text.length
    · have last := (Cursor.lastIndexInside text.toArray (begins text.toArray place)).mpr (by simpa)
      rw [numberFrom inside, begins, Nat.min_eq_left last, List.tail_cons]
    · have ended : text.length ≤ begins text.toArray (place + 1) := by
        rw [begins]
        have far := Cursor.startLeLast text.toArray (begins text.toArray place)
        simp only [List.size_toArray]
        omega
      rw [List.drop_of_length_le ended, List.drop_of_length_le (by omega)]
      rfl

theorem placeInside {text : List Char} {place : Nat} (inside : begins text.toArray place < text.length) :
    (ofText text)[place]? = some ⟨rawAt text.toArray (begins text.toArray place),
      lastIndex text.toArray (begins text.toArray place)⟩ := by
  have rest := numberBegins text place
  rw [numberFrom inside] at rest
  rw [← List.head?_drop, ← rest, List.head?_cons]

theorem placeOutside {text : List Char} {place : Nat} (outside : text.length ≤ begins text.toArray place) :
    (ofText text)[place]? = none := by
  have rest := numberBegins text place
  rw [List.drop_of_length_le outside, numberNil] at rest
  rw [← List.head?_drop, ← rest, List.head?_nil]

theorem placeIff (text : List Char) (place : Nat) :
    place < (ofText text).length ↔ begins text.toArray place < text.length := by
  constructor
  · intro present
    by_cases inside : begins text.toArray place < text.length
    · exact inside
    · have absent := List.getElem?_eq_none_iff.mp (placeOutside (Nat.le_of_not_lt inside))
      omega
  · intro inside
    exact (List.getElem?_eq_some_iff.mp (placeInside inside)).1

theorem slotBegins (text : List Char) (place : Nat) :
    slot (ofText text) place = rawAt text.toArray (begins text.toArray place) := by
  by_cases inside : begins text.toArray place < text.length
  · rw [slot, placeInside inside]
    rfl
  · rw [slot, placeOutside (by omega), Cursor.rawAtOutside (by simpa using inside)]
    rfl

theorem lineFeedAlone {text : List Char} {l : Logical} (member : l ∈ ofText text)
    (lineFeed : l.char = '\n') :
    text[l.last]? = some '\n' ∧ ∀ i, i + 1 = l.last → text[i]? ≠ some '\r' := by
  obtain ⟨place, found⟩ := List.mem_iff_getElem?.mp member
  have inside := (placeIff text place).mp (List.getElem?_eq_some_iff.mp found).1
  rw [placeInside inside] at found
  cases found
  have single : ¬PairAt text.toArray (begins text.toArray place) := by
    rintro ⟨carriage, _⟩
    exact absurd (carriage.symm.trans lineFeed) (by decide)
  rw [Cursor.lastOfSingle single]
  refine ⟨by simpa using (Cursor.rawAtIff (by decide)).mp lineFeed, ?_⟩
  intro i next carriage
  cases place with
  | zero => contradiction
  | succ place =>
    have same : begins text.toArray (place + 1) =
        lastIndex text.toArray (begins text.toArray place) + 1 := by
      rw [begins, List.size_toArray] at inside ⊢
      omega
    rw [same] at next lineFeed
    cases Nat.succ.inj next
    have behind : rawAt text.toArray (lastIndex text.toArray (begins text.toArray place)) = '\r' :=
      (Cursor.rawAtIff (by decide)).mpr (by simpa using carriage)
    exact Cursor.noPairAcross behind lineFeed

theorem lengthPairs (index : Nat) (text : List Char) :
    (number index text).length + pairs text = text.length := by
  fun_induction number index text with
  | case1 => rfl
  | case2 => rfl
  | case3 index c d rest pair ih =>
    rw [pair.1, pair.2, pairsPair]
    simp only [List.length_cons]
    omega
  | case4 index c d rest single ih =>
    rw [pairsSingle (by simpa using single)]
    simp only [List.length_cons] at ih ⊢
    omega

end Logical

namespace Cursor
open Logical (slot before begins)

def placed (text : List Char) (place : Nat) : Cursor :=
  let all := Logical.ofText text
  { text := text.toArray
    index := (all[place]?.map Logical.last).getD text.length
    previous := before all place
    current := slot all place
    next := slot all (place + 1)
    atLineStart := decide (place = 0) || isTerminator (before all place)
    atLineEnd := decide (all.length ≤ place) || isTerminator (slot all place) }

@[simp] theorem placedText (text : List Char) (place : Nat) :
    (placed text place).text = text.toArray := rfl

theorem placedCurrent (text : List Char) (place : Nat) :
    (placed text place).current = slot (Logical.ofText text) place := rfl

theorem placedNext (text : List Char) (place : Nat) :
    (placed text place).next = slot (Logical.ofText text) (place + 1) := rfl

theorem placedStanding (text : List Char) (place : Nat) :
    placed text place = standing text.toArray (begins text.toArray place)
      (before (Logical.ofText text) place)
      (decide (place = 0) || isTerminator (before (Logical.ofText text) place)) := by
  by_cases inside : begins text.toArray place < text.length
  · have here := Logical.placeInside inside
    have last := (lastIndexInside text.toArray _).mpr (by simpa using inside)
    have next : begins text.toArray (place + 1) =
        lastIndex text.toArray (begins text.toArray place) + 1 := Nat.min_eq_left last
    have more : ¬(Logical.ofText text).length ≤ place := by
      rw [Nat.not_le]
      exact (Logical.placeIff text place).mpr inside
    simp only [placed, standing, here, Logical.slotBegins, next, more, inside, Option.map_some,
      Option.getD_some, List.size_toArray, decide_true, decide_false, Bool.not_true, Bool.or_false,
      Bool.false_or]
  · have ended : begins text.toArray place = text.toArray.size := by
      have bound := Logical.beginsInside text.toArray place
      simp only [List.size_toArray] at bound ⊢
      omega
    have outside := Nat.le_of_not_lt inside
    have done : (Logical.ofText text).length ≤ place := by
      rw [← Nat.not_lt, Logical.placeIff]
      exact inside
    rw [ended, standingAtEnd]
    simp [placed, Logical.slotOutside done, Logical.slotOutside (Nat.le_succ_of_le done), done]

theorem placedHasMore (text : List Char) (place : Nat) :
    (placed text place).hasMore ↔ place < (Logical.ofText text).length := by
  rw [placedStanding, standingHasMore, Logical.placeIff, List.size_toArray]

theorem ofTextPlaced (text : String) : ofText text = placed text.toList 0 := by
  rw [placedStanding]
  exact ofArrayStanding text.toList.toArray

theorem advancePlaced (text : List Char) (place : Nat) :
    (placed text place).advance = placed text (place + 1) := by
  have behind : before (Logical.ofText text) (place + 1) =
      rawAt text.toArray (begins text.toArray place) := Logical.slotBegins text place
  rw [placedStanding, placedStanding, behind]
  by_cases inside : begins text.toArray place < text.toArray.size
  · have last := (lastIndexInside text.toArray _).mpr inside
    rw [advanceStanding inside, begins, Nat.min_eq_left last]
    simp
  · have bound := Logical.beginsInside text.toArray place
    have ended : begins text.toArray place = text.toArray.size := by omega
    have next : begins text.toArray (place + 1) = text.toArray.size := by
      have far := startLeLast text.toArray text.toArray.size
      rw [begins, ended]
      omega
    rw [next, ended, advanceStandingPast, rawAtOutside (Nat.le_refl _)]
    rfl

theorem advanceByPlaced (text : List Char) (count place : Nat) :
    (placed text place).advanceBy count = placed text (place + count) := by
  induction count generalizing place with
  | zero => rfl
  | succ count ih =>
    rw [advanceBy, advancePlaced, ih, Nat.add_right_comm, Nat.add_assoc]

theorem advanceByOfText (text : String) (moves : Nat) :
    (ofText text).advanceBy moves = placed text.toList moves := by
  rw [ofTextPlaced, advanceByPlaced, Nat.zero_add]

theorem placedInside {text : List Char} {place : Nat} (inside : place < (Logical.ofText text).length) :
    placed text place =
      { text := text.toArray
        index := (Logical.ofText text)[place].last
        previous := before (Logical.ofText text) place
        current := (Logical.ofText text)[place].char
        next := slot (Logical.ofText text) (place + 1)
        atLineStart := decide (place = 0) || isTerminator (before (Logical.ofText text) place)
        atLineEnd := isTerminator (Logical.ofText text)[place].char } := by
  have more : ¬(Logical.ofText text).length ≤ place := Nat.not_le.mpr inside
  simp [placed, slot, inside, more]

theorem placedOutside {text : List Char} {place : Nat} (outside : (Logical.ofText text).length ≤ place) :
    placed text place =
      { text := text.toArray
        index := text.length
        previous := before (Logical.ofText text) place
        current := sentinel
        next := sentinel
        atLineStart := decide (place = 0) || isTerminator (before (Logical.ofText text) place)
        atLineEnd := true } := by
  simp [placed, Logical.slotOutside outside, Logical.slotOutside (Nat.le_succ_of_le outside), outside]

theorem foldPlaced {σ : Type} (f : σ → Cursor → σ) (acc : σ) (text : List Char) (place : Nat) :
    (placed text place).fold f acc =
      ((List.range' place ((Logical.ofText text).length - place)).map (placed text)).foldl f acc := by
  generalize left : (Logical.ofText text).length - place = count
  induction count generalizing place acc with
  | zero =>
    have done : ¬(placed text place).hasMore := by
      rw [placedHasMore]
      omega
    rw [fold, if_neg done]
    rfl
  | succ count ih =>
    have more : (placed text place).hasMore := by
      rw [placedHasMore]
      omega
    rw [fold, if_pos more, advancePlaced, ih _ _ (by omega)]
    rfl

/- The four states of a walk: inside, just past the last character, over nothing, and settled. -/
theorem advanceByFollowsCollapse (text : String) (moves : Nat) :
    let all := Logical.ofText text.toList
    let c := (ofText text).advanceBy moves
    (∀ inside : moves < all.length, c.hasMore ∧ c =
      { text := text.toList.toArray
        index := all[moves].last
        previous := before all moves
        current := all[moves].char
        next := slot all (moves + 1)
        atLineStart := decide (moves = 0) || isTerminator (before all moves)
        atLineEnd := isTerminator all[moves].char }) ∧
    (moves = all.length → 0 < moves → ¬c.hasMore ∧ c =
      { text := text.toList.toArray
        index := text.length
        previous := before all moves
        current := sentinel
        next := sentinel
        atLineStart := isTerminator (before all moves)
        atLineEnd := true }) ∧
    (moves = all.length → moves = 0 → ¬c.hasMore ∧ c =
      { text := text.toList.toArray
        index := 0
        previous := sentinel
        current := sentinel
        next := sentinel
        atLineStart := true
        atLineEnd := true }) ∧
    (all.length < moves → ¬c.hasMore ∧ c =
      { text := text.toList.toArray
        index := text.length
        previous := sentinel
        current := sentinel
        next := sentinel
        atLineStart := false
        atLineEnd := true }) ∧
    (c.hasMore ↔ moves < text.length - Logical.pairs text.toList) ∧
    ∀ l ∈ all, l.char = '\n' → text.toList[l.last]? = some '\n' ∧
      ∀ i, i + 1 = l.last → text.toList[i]? ≠ some '\r' := by
  intro all c
  have here : c = placed text.toList moves := advanceByOfText text moves
  have more : c.hasMore ↔ moves < all.length := by rw [here, placedHasMore]
  have total : all.length + Logical.pairs text.toList = text.length :=
    Logical.lengthPairs 0 text.toList
  refine ⟨?inside, ?exhausted, ?empty, ?settled, ?count, fun l member => Logical.lineFeedAlone member⟩
  case inside =>
    intro inside
    exact ⟨more.mpr inside, here.trans (placedInside inside)⟩
  case exhausted =>
    intro last moved
    have flag : decide (moves = 0) = false := decide_eq_false (Nat.ne_of_gt moved)
    refine ⟨fun has => Nat.ne_of_lt (more.mp has) last, ?_⟩
    rw [here, placedOutside (Nat.le_of_eq last.symm), flag, Bool.false_or, String.length_toList]
  case empty =>
    intro last still
    subst still
    have nothing : text.toList.length = 0 := by
      have first : 0 < all.length ↔ 0 < text.toList.length := Logical.placeIff text.toList 0
      omega
    refine ⟨fun has => Nat.ne_of_lt (more.mp has) last, ?_⟩
    rw [here, placedOutside (Nat.le_of_eq last.symm), nothing]
    rfl
  case settled =>
    intro past
    have moved : decide (moves = 0) = false := decide_eq_false (Nat.ne_of_gt (Nat.zero_lt_of_lt past))
    refine ⟨fun has => Nat.lt_asymm (more.mp has) past, ?_⟩
    rw [here, placedOutside (Nat.le_of_lt past), Logical.beforePast past, moved, String.length_toList]
    rfl
  case count =>
    rw [more]
    omega

end Cursor
end TextCursor
