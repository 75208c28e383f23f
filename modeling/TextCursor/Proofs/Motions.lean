import TextCursor.Proofs.Places

/-! Where the motions lead. Each leads from a place to a place that the logical characters alone
tell, so every walk stays on the places of its text. -/
namespace TextCursor
open Character (sentinel isBlank isTerminator)

namespace Logical

def stretch (kind : Char → Bool) (all : List Logical) (place : Nat) : Nat :=
  ((all.drop place).takeWhile fun l => kind l.char).length

def blanks : List Logical → Nat → Nat := stretch isBlank

def unended : List Logical → Nat → Nat := stretch fun c => !isTerminator c

def nextLine (all : List Logical) (place : Nat) : Nat :=
  max (place + 1) (min (place + unended all place + 1) all.length)

def move (all : List Logical) (place : Nat) : Motion → Nat
  | .advance => place + 1
  | .advanceBy count => place + count
  | .skipBlanks => place + blanks all place
  | .nextLine => nextLine all place

theorem restNil {all : List Logical} {place : Nat} (rest : all.drop place = []) :
    slot all place = sentinel := slotOutside (List.drop_eq_nil_iff.mp rest)

theorem restCons {all : List Logical} {place : Nat} {l : Logical} {behind : List Logical}
    (rest : all.drop place = l :: behind) :
    slot all place = l.char ∧ all.drop (place + 1) = behind ∧
      all.length = place + 1 + behind.length := by
  have here : all[place]? = some l := by rw [← List.head?_drop, rest, List.head?_cons]
  have next : all.drop (place + 1) = behind := by rw [← List.tail_drop, rest, List.tail_cons]
  have lengths := congrArg List.length rest
  simp only [List.length_drop, List.length_cons] at lengths
  refine ⟨by simp [slot, here], next, by omega⟩

theorem nextLineStops {all : List Logical} {place : Nat}
    (stop : isTerminator (slot all place) ∨ all.length ≤ place + 1) :
    nextLine all place = place + 1 := by
  unfold nextLine unended stretch
  cases left : all.drop place with
  | nil =>
    have outside := List.drop_eq_nil_iff.mp left
    simp only [List.takeWhile_nil, List.length_nil]
    omega
  | cons l rest =>
    obtain ⟨char, _, total⟩ := restCons left
    rcases stop with ended | last
    · rw [List.takeWhile_cons_of_neg (by simpa [char] using ended), List.length_nil]
      omega
    · omega

theorem nextLineGoesOn {all : List Logical} {place : Nat}
    (inner : isTerminator (slot all place) = false) (inside : place + 1 < all.length) :
    nextLine all place = nextLine all (place + 1) := by
  unfold nextLine unended stretch
  cases left : all.drop place with
  | nil =>
    have outside := List.drop_eq_nil_iff.mp left
    omega
  | cons l rest =>
    obtain ⟨char, next, total⟩ := restCons left
    rw [next, List.takeWhile_cons_of_pos (by simpa [char] using inner), List.length_cons]
    omega

end Logical

namespace Cursor
open Logical (slot before blanks stretch)

theorem skipBlanksPlaced (text : List Char) (place : Nat) :
    (placed text place).skipBlanks = (blanks (Logical.ofText text) place,
      placed text (place + blanks (Logical.ofText text) place)) := by
  unfold blanks stretch
  generalize left : (Logical.ofText text).drop place = rest
  induction rest generalizing place with
  | nil =>
    have stop : ¬isBlank (placed text place).current := by
      rw [placedCurrent, Logical.restNil left]
      decide
    rw [skipBlanks, if_neg stop]
    rfl
  | cons l rest ih =>
    obtain ⟨char, next, _⟩ := Logical.restCons left
    rw [skipBlanks, placedCurrent, char, List.takeWhile_cons]
    split
    · rw [advancePlaced, ih (place + 1) next, List.length_cons, Nat.add_right_comm]
      rfl
    · rfl

theorem nextLinePlaced (text : List Char) (place : Nat) :
    (placed text place).nextLine = placed text (Logical.nextLine (Logical.ofText text) place) := by
  generalize left : (Logical.ofText text).length - place = count
  induction count using Nat.strongRecOn generalizing place with
  | ind count ih =>
    have start : (placed text (place + 1)).atLineStart =
        isTerminator (slot (Logical.ofText text) place) := rfl
    rw [Cursor.nextLine, advancePlaced, start]
    split
    · rename_i stop
      simp only [Bool.or_eq_true, Bool.not_eq_true', ← Bool.not_eq_true, placedHasMore,
        Nat.not_lt] at stop
      rw [Logical.nextLineStops stop]
    · rename_i goesOn
      simp only [Bool.or_eq_true, not_or, Bool.not_eq_true, Bool.not_eq_false', placedHasMore] at goesOn
      rw [ih _ (by omega) (place + 1) rfl, Logical.nextLineGoesOn goesOn.1 goesOn.2]

theorem movePlaced (text : List Char) (place : Nat) (motion : Motion) :
    (placed text place).move motion =
      placed text (Logical.move (Logical.ofText text) place motion) := by
  cases motion with
  | advance => exact advancePlaced text place
  | advanceBy count => exact advanceByPlaced text count place
  | skipBlanks => exact congrArg Prod.snd (skipBlanksPlaced text place)
  | nextLine => exact nextLinePlaced text place

theorem walkPlaced (text : List Char) (place : Nat) (motions : List Motion) :
    motions.foldl move (placed text place) =
      placed text (motions.foldl (Logical.move (Logical.ofText text)) place) := by
  induction motions generalizing place with
  | nil => rfl
  | cons motion motions ih => rw [List.foldl_cons, List.foldl_cons, movePlaced, ih]

theorem walkOfText (text : String) (motions : List Motion) :
    motions.foldl move (ofText text) =
      placed text.toList (motions.foldl (Logical.move (Logical.ofText text.toList)) 0) := by
  rw [ofTextPlaced, walkPlaced]

end Cursor
end TextCursor
