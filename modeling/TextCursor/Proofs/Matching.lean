import TextCursor.Proofs.Lookups
import TextCursor.Proofs.Motions

/-! Comparing with the raw text compares with the positions that are meant, for every offset that a
word can hold. Sentinels in what is compared match outside the text; without any, what matches is a
piece of the text.

Comparing with the slots agrees with it. What is next is always the raw character behind the index, and
what is current is the one at the index, but on a pair, whose LF is at the index: there the CR is
compared on its own and the rest from one character on. -/
namespace TextCursor.Cursor
open Character (sentinel)

theorem anywhereIff {text : List Char} {position : Int} {c : Char} (present : c ≠ sentinel) :
    rawAnywhere text.toArray position = c ↔ 0 ≤ position ∧ text[position.toNat]? = some c := by
  unfold rawAnywhere
  split
  · rename_i inside
    simp [rawAtIff present, inside]
  · rename_i before
    simp [before, present.symm]

theorem matchesAtExact {c : Cursor} (inside : c.index ≤ c.text.size)
    (held : c.text.size < Offset.reach) {needle : String} (filled : needle ≠ "") (offset : Int64) :
    c.matchesAt offset (some needle) ↔ ∀ i (_ : i < needle.toList.length),
      needle.toList[i] = rawAnywhere c.text (c.index + offset.toInt + i) := by
  have any : needle.toList.isEmpty = false := by simpa using filled
  simp only [matchesAt, any, Bool.not_false, Bool.true_and, List.all_eq_true, beq_iff_eq,
    charAtFurther inside held]
  constructor
  · intro every i near
    exact every (needle.toList[i], i) (List.mk_mem_zipIdx_iff_getElem?.mpr (List.getElem?_eq_getElem near))
  · rintro every ⟨expected, i⟩ member
    obtain ⟨near, same⟩ := List.getElem?_eq_some_iff.mp (List.mk_mem_zipIdx_iff_getElem?.mp member)
    rw [← same]
    exact every i near

theorem piecePresent {text needle : List Char} {start : Int} (filled : needle ≠ [])
    (present : sentinel ∉ needle) :
    (∀ i (_ : i < needle.length), needle[i] = rawAnywhere text.toArray (start + i)) ↔
      0 ≤ start ∧ start + needle.length ≤ text.length ∧
        (text.drop start.toNat).take needle.length = needle := by
  have first : 0 < needle.length := List.length_pos_iff.mpr filled
  have real : ∀ i (near : i < needle.length), needle[i] ≠ sentinel := by
    intro i near same
    exact present (same ▸ List.getElem_mem near)
  constructor
  · intro every
    have found : ∀ i (near : i < needle.length),
        0 ≤ start + i ∧ text[(start + i).toNat]? = some needle[i] :=
      fun i near => (anywhereIff (real i near)).mp (every i near).symm
    have begins : 0 ≤ start := by simpa using (found 0 first).1
    obtain ⟨ends, _⟩ := List.getElem?_eq_some_iff.mp (found (needle.length - 1) (by omega)).2
    have fits : start + needle.length ≤ text.length := by omega
    refine ⟨begins, fits, List.ext_getElem (by simp; omega) ?_⟩
    intro i _ near
    have here := (found i near).2
    have index : (start + i).toNat = start.toNat + i := by omega
    rw [index] at here
    simpa using (List.getElem?_eq_some_iff.mp here).2
  · rintro ⟨begins, fits, piece⟩ i near
    refine ((anywhereIff (real i near)).mpr ⟨by omega, ?_⟩).symm
    have index : (start + i).toNat = start.toNat + i := by omega
    have here : ((text.drop start.toNat).take needle.length)[i]? = needle[i]? := by rw [piece]
    rw [List.getElem?_take_of_lt near, List.getElem?_drop, ← index] at here
    rw [here, List.getElem?_eq_getElem near]

theorem offsetsExact {text needle : String} (held : text.length < Offset.reach)
    (filled : needle ≠ "") (motions : List Motion) (offset : Int64) :
    let c := motions.foldl move (ofText text)
    let start := c.index + offset.toInt
    c.charAt offset = rawAnywhere text.toList.toArray start ∧
    (c.matchesAt offset (some needle) ↔ ∀ i (_ : i < needle.toList.length),
      needle.toList[i] = rawAnywhere text.toList.toArray (start + i)) ∧
    (sentinel ∉ needle.toList → (c.matchesAt offset (some needle) ↔
      0 ≤ start ∧ start + needle.length ≤ text.length ∧
        (text.toList.drop start.toNat).take needle.length = needle.toList)) := by
  intro c start
  have here : c = placed text.toList _ := walkOfText text motions
  have whole : c.text = text.toList.toArray := congrArg Cursor.text here
  have bound : c.index ≤ c.text.size := by
    rw [whole, List.size_toArray, here]
    exact indexInside _ _
  have short : c.text.size < Offset.reach := by
    rw [whole, List.size_toArray, String.length_toList]
    exact held
  have read := charAtExact (Nat.le_of_lt (Nat.lt_of_le_of_lt bound short)) offset
  have matched := matchesAtExact bound short filled offset
  rw [whole] at read matched
  refine ⟨read, matched, fun present => ?_⟩
  rw [matched, piecePresent (by simpa using filled) present, String.length_toList,
    String.length_toList]

/- On the LF of a pair: a sentinel in front of the text, a piece of the text, and nothing but
sentinels where a word cannot hold what is added up. -/
theorem offsetsExactBeyondWords :
    let text := "a\r\nb"
    let c := [Motion.advance].foldl move (ofText text)
    let start (offset : Int64) : Int := c.index + offset.toInt
    text.length < Offset.reach ∧ "\x00a" ≠ "" ∧ "b" ≠ "" ∧ sentinel ∉ "b".toList ∧ "\x00\x00" ≠ "" ∧
    start (-3) = -1 ∧ c.matchesAt (-3) (some "\x00a") ∧
    (c.matchesAt (-3) (some "\x00a") ↔ ∀ i (_ : i < "\x00a".toList.length),
      "\x00a".toList[i] = rawAnywhere text.toList.toArray (start (-3) + i)) ∧
    start 1 = 3 ∧ c.matchesAt 1 (some "b") ∧
    (c.matchesAt 1 (some "b") ↔ 0 ≤ start 1 ∧ start 1 + "b".length ≤ text.length ∧
      (text.toList.drop (start 1).toNat).take "b".length = "b".toList) ∧
    start Int64.maxValue = Offset.reach + 1 ∧ c.matchesAt Int64.maxValue (some "\x00\x00") ∧
    (c.matchesAt Int64.maxValue (some "\x00\x00") ↔ ∀ i (_ : i < "\x00\x00".toList.length),
      "\x00\x00".toList[i] = rawAnywhere text.toList.toArray (start Int64.maxValue + i)) := by
  intro text c start
  have held : text.length < Offset.reach := by decide
  have front : "\x00a" ≠ "" := by decide
  have inner : "b" ≠ "" := by decide
  have present : sentinel ∉ "b".toList := by decide
  have far : "\x00\x00" ≠ "" := by decide
  exact ⟨held, front, inner, present, far,
    by decide, by decide, (offsetsExact held front [.advance] (-3)).2.1,
    by decide, by decide, (offsetsExact held inner [.advance] 1).2.2 present,
    by decide, by decide, (offsetsExact held far [.advance] Int64.maxValue).2.1⟩

def rawMatches (text : Array Char) : Nat → List Char → Bool
  | _, [] => true
  | index, expected :: rest => expected == rawAt text index && rawMatches text (index + 1) rest

theorem furtherNear {steps more : Nat} (near : steps + more < Offset.reach) :
    Offset.further (Int64.ofNat steps) more = Int64.ofNat (steps + more) := by
  have first : (Int64.ofNat steps).toInt = steps :=
    Int64.toInt_ofNat_of_lt (Nat.lt_of_le_of_lt (Nat.le_add_right steps more) near)
  have both : (Int64.ofNat (steps + more)).toInt = (steps + more : Nat) := Int64.toInt_ofNat_of_lt near
  have within : (steps : Int) + more ≤ Int64.maxValue.toInt := by
    rw [← Int.natCast_add, ← both]
    exact Int64.toInt_le _
  rw [← Int64.toInt_inj, Offset.furtherInt, first, both, Int.min_eq_left within, Int.natCast_add]

theorem allRaw {c : Cursor} {start first : Nat} {offsets : Nat → Int64} {needle : List Char}
    (reads : ∀ i, first ≤ i → i < first + needle.length →
      c.charAt (offsets i) = rawAt c.text (start + i)) :
    ((needle.zipIdx first).all fun (expected, i) => expected == c.charAt (offsets i)) =
      rawMatches c.text (start + first) needle := by
  induction needle generalizing first with
  | nil => rfl
  | cons expected needle ih =>
    rw [List.length_cons] at reads
    have here := reads first (Nat.le_refl first) (by omega)
    have behind := @ih (first + 1) fun i above below => reads i (by omega) (by omega)
    simp only [List.zipIdx_cons, List.all_cons, here, behind, rawMatches, Nat.add_assoc]

section
variable {c : Cursor} (held : c.index ≤ Offset.reach)
include held

theorem matchesAtRaw {offset : Nat} {needle : String} (short : offset + needle.length ≤ Offset.reach) :
    c.matchesAt (Int64.ofNat offset) (some needle) =
      (!needle.toList.isEmpty && rawMatches c.text (c.index + offset) needle.toList) := by
  rw [← String.length_toList] at short
  have reads : ∀ i, 0 ≤ i → i < 0 + needle.toList.length →
      c.charAt (Offset.further (Int64.ofNat offset) i) = rawAt c.text (c.index + offset + i) := by
    intro i _ inside
    rw [furtherNear (by omega), charAtAhead held (by omega), Nat.add_assoc]
  rw [matchesAt, allRaw reads, Nat.add_zero]

theorem matchesTextRaw {needle : String} {first : Char} {behind : List Char}
    (next : c.next = rawAt c.text (c.index + 1)) (own : needle.toList = first :: behind)
    (short : needle.length ≤ Offset.reach) :
    c.matchesText (some needle) =
      (first == c.current && rawMatches c.text (c.index + 1) behind) := by
  rw [← String.length_toList, own, List.length_cons] at short
  rw [matchesText, own]
  cases behind with
  | nil => rw [rawMatches, Bool.and_true]
  | cons second rest =>
    rw [List.length_cons] at short
    have reads : ∀ i, 2 ≤ i → i < 2 + rest.length →
        c.charAt (Int64.ofNat i) = rawAt c.text (c.index + i) :=
      fun i _ inside => charAtAhead held (by omega)
    simp only [allRaw reads, rawMatches, next, Bool.and_assoc]

end

section
variable {text : List Char} {place : Nat} (held : text.length ≤ Offset.reach)

theorem nextRaw (text : List Char) (place : Nat) :
    (placed text place).next = rawAt text.toArray ((placed text place).index + 1) := by
  rw [placedStanding]
  rfl

theorem currentRaw (alone : ¬(placed text place).OnPair) :
    (placed text place).current = rawAt text.toArray (placed text place).index := by
  rw [placedStanding] at alone ⊢
  rw [standing, lastOfSingle (mt standingOnPair.mpr alone)]

include held

theorem indexHeld : (placed text place).index ≤ Offset.reach :=
  Nat.le_trans (indexInside text place) held

theorem onPairSeen :
    (placed text place).current = '\r' ∧ (placed text place).charAt 0 = '\n' ↔
      (placed text place).OnPair := by
  have here : (placed text place).charAt 0 = rawAt text.toArray (placed text place).index :=
    charAtAhead (indexHeld held) (by decide)
  rw [here]
  rfl

variable {needle : String} (short : needle.length ≤ Offset.reach)
include short

theorem matchesAlone (alone : ¬(placed text place).OnPair) :
    (placed text place).matchesText (some needle) = (placed text place).matchesAt 0 (some needle) := by
  have bound : 0 + needle.length ≤ Offset.reach := by rwa [Nat.zero_add]
  have inside : (placed text place).index ≤ Offset.reach := indexHeld held
  have raw := matchesAtRaw inside bound
  cases own : needle.toList with
  | nil => simp [matchesText, matchesAt, own]
  | cons first behind =>
    rw [own] at raw
    rw [matchesTextRaw inside (nextRaw text place) own short, currentRaw alone]
    exact raw.symm

theorem matchesOnPair (pair : (placed text place).OnPair) :
    (placed text place).matchesText (some needle) ↔ ∃ rest, needle.toList = '\r' :: rest ∧
      (rest = [] ∨ (placed text place).matchesAt 1 (some (String.ofList rest))) := by
  cases own : needle.toList with
  | nil => simp [matchesText, own]
  | cons first behind =>
    have bound : 1 + (String.ofList behind).length ≤ Offset.reach := by
      rw [← String.length_toList, own, List.length_cons] at short
      rw [String.length_ofList]
      omega
    have inside : (placed text place).index ≤ Offset.reach := indexHeld held
    have raw := matchesAtRaw inside bound
    have one : Int64.ofNat 1 = 1 := rfl
    rw [String.toList_ofList, one] at raw
    have rest : (behind = [] ∨ (placed text place).matchesAt 1 (some (String.ofList behind))) ↔
        rawMatches (placed text place).text ((placed text place).index + 1) behind := by
      rw [raw]
      cases behind with
      | nil => simp [rawMatches]
      | cons second rest => simp
    rw [matchesTextRaw inside (nextRaw text place) own short, pair.1, Bool.and_eq_true,
      beq_iff_eq, ← rest]
    constructor
    · rintro ⟨rfl, matched⟩
      exact ⟨behind, rfl, matched⟩
    · rintro ⟨needed, same, matched⟩
      obtain ⟨rfl, rfl⟩ := List.cons.inj same
      exact ⟨rfl, matched⟩

end

theorem matchesNothing (c : Cursor) (offset : Int64) :
    c.matchesText none = false ∧ c.matchesAt offset none = false ∧
      c.matchesText (some "") = false ∧ c.matchesAt offset (some "") = false :=
  ⟨rfl, rfl, rfl, rfl⟩

theorem matchingAgrees {text needle : String} (held : text.length ≤ Offset.reach)
    (short : needle.length ≤ Offset.reach) (motions : List Motion) :
    let c := motions.foldl move (ofText text)
    (¬(c.current = '\r' ∧ c.charAt 0 = '\n') →
      c.matchesText (some needle) = c.matchesAt 0 (some needle)) ∧
    (c.current = '\r' ∧ c.charAt 0 = '\n' →
      (c.matchesText (some needle) ↔ ∃ rest, needle.toList = '\r' :: rest ∧
        (rest = [] ∨ c.matchesAt 1 (some (String.ofList rest))))) ∧
    ∀ offset, c.matchesText none = false ∧ c.matchesAt offset none = false ∧
      c.matchesText (some "") = false ∧ c.matchesAt offset (some "") = false := by
  intro c
  have standing : c = placed text.toList (motions.foldl (Logical.move (Logical.ofText text.toList)) 0) := by
    rw [← walkPlaced, ← ofTextPlaced]
  rw [← String.length_toList] at held
  rw [standing, onPairSeen held]
  exact ⟨matchesAlone held short, matchesOnPair held short, matchesNothing _⟩

/- On a pair that a lone CR follows, and past the end, where sentinels match. -/
theorem matchingAgreesAroundPair :
    let text := "a\r\n\rb"
    let onPair := [Motion.advance].foldl move (ofText text)
    let past := [Motion.advanceBy 9].foldl move (ofText text)
    text.length ≤ Offset.reach ∧ "\r\rb".length ≤ Offset.reach ∧ "\x00\x00\x00".length ≤ Offset.reach ∧
    (onPair.current = '\r' ∧ onPair.charAt 0 = '\n') ∧
    (onPair.matchesText (some "\r\rb") ↔ ∃ rest, "\r\rb".toList = '\r' :: rest ∧
      (rest = [] ∨ onPair.matchesAt 1 (some (String.ofList rest)))) ∧
    onPair.matchesAt 1 (some "\rb") ∧ onPair.matchesAt 0 (some "\r\rb") = false ∧
    ¬(past.current = '\r' ∧ past.charAt 0 = '\n') ∧ past.matchesAt 0 (some "\x00\x00\x00") ∧
    past.matchesText (some "\x00\x00\x00") = past.matchesAt 0 (some "\x00\x00\x00") := by
  intro text onPair past
  have held : text.length ≤ Offset.reach := by decide
  have onIt : onPair.current = '\r' ∧ onPair.charAt 0 = '\n' := by decide
  have off : ¬(past.current = '\r' ∧ past.charAt 0 = '\n') := by decide
  have short : "\r\rb".length ≤ Offset.reach := by decide
  have none : "\x00\x00\x00".length ≤ Offset.reach := by decide
  exact ⟨held, short, none, onIt, (matchingAgrees held short [.advance]).2.1 onIt, by decide, by decide,
    off, by decide, (matchingAgrees held none [.advanceBy 9]).1 off⟩

end TextCursor.Cursor
