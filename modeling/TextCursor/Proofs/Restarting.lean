import TextCursor.Cursor.Describe
import TextCursor.Proofs.Motions
import TextCursor.Proofs.StepTable

/-! A walk that is begun anew on the rest of a text goes on as the first one would have. It knows
nothing of what is behind it, and if it is begun on a pair it finds only the LF; but an LF ends a
line as its pair does, so no line is gained or lost. -/
namespace TextCursor
open Character (sentinel isTerminator)

namespace Logical

def since (start : Nat) (l : Logical) : Logical := { l with last := l.last - start }

def restarted (start : Nat) (first : Char) (all : List Logical) : List Logical :=
  (all.map (since start)).modify 0 fun l => { l with char := first }

theorem numberSince (start index : Nat) (text : List Char) :
    (number (index + start) text).map (since start) = number index text := by
  fun_induction number index text with
  | case1 => rfl
  | case2 index c => simp [number, since]
  | case3 index c d rest pair ih =>
    have pairAhead : index + 2 + start = index + start + 2 := by omega
    rw [pairAhead] at ih
    rw [number, if_pos pair, List.map_cons, ih]
    simp only [since, Nat.add_right_comm index start 1, Nat.add_sub_cancel]
  | case4 index c d rest single ih =>
    rw [Nat.add_right_comm] at ih
    rw [number, if_neg single, List.map_cons, ih]
    simp [since]

end Logical

namespace Step

def since (start : Nat) (s : Step) : Step := { s with index := s.index - start }

def ofLogical (previous : Char) (atLineStart : Bool) : List Logical → List Step
  | [] => []
  | l :: rest =>
      { index := l.last, previous, current := l.char
        next := (rest.head?.map Logical.char).getD sentinel
        atLineStart, atLineEnd := isTerminator l.char } ::
        ofLogical l.char (isTerminator l.char) rest

theorem ofLogicalSince (start : Nat) (previous : Char) (atLineStart : Bool) (all : List Logical) :
    (ofLogical previous atLineStart all).map (since start) =
      ofLogical previous atLineStart (all.map (Logical.since start)) := by
  induction all generalizing previous atLineStart with
  | nil => rfl
  | cons l rest ih =>
    have next : (rest.map (Logical.since start)).head?.map Logical.char = rest.head?.map Logical.char := by
      cases rest <;> rfl
    simp only [ofLogical, List.map_cons, ih, next]
    rfl

theorem ofLogicalPlaces (text : List Char) (place : Nat) :
    ((List.range' place ((Logical.ofText text).length - place)).map fun place =>
        ofCursor (Cursor.placed text place)) =
      ofLogical (Logical.before (Logical.ofText text) place)
        (decide (place = 0) || isTerminator (Logical.before (Logical.ofText text) place))
        ((Logical.ofText text).drop place) := by
  generalize left : (Logical.ofText text).drop place = rest
  induction rest generalizing place with
  | nil =>
    have none : (Logical.ofText text).length - place = 0 :=
      Nat.sub_eq_zero_of_le (List.drop_eq_nil_iff.mp left)
    rw [none]
    rfl
  | cons l rest ih =>
    obtain ⟨char, behind, total⟩ := Logical.restCons left
    have here : (Logical.ofText text)[place]? = some l := by
      rw [← List.head?_drop, left, List.head?_cons]
    obtain ⟨inside, own⟩ := List.getElem?_eq_some_iff.mp here
    have next : Logical.slot (Logical.ofText text) (place + 1) =
        (rest.head?.map Logical.char).getD sentinel := by
      rw [Logical.slot, ← List.head?_drop, behind]
    have count : (Logical.ofText text).length - place =
        (Logical.ofText text).length - (place + 1) + 1 := by omega
    have further := ih (place + 1) behind
    rw [Logical.before, char] at further
    rw [count, List.range'_succ, List.map_cons, further, ofLogical, Cursor.placedInside inside, own]
    simp only [ofCursor, next, Nat.add_one_ne_zero, decide_false, Bool.false_or]

theorem dropSteps (text : String) (place : Nat) :
    (ofText text).drop place =
      ofLogical (Logical.before (Logical.ofText text.toList) place)
        (decide (place = 0) || isTerminator (Logical.before (Logical.ofText text.toList) place))
        ((Logical.ofText text.toList).drop place) := by
  rw [ofTextPlaced, ← ofLogicalPlaces, ← List.map_drop, List.range_eq_range', List.drop_range',
    Nat.mul_one, Nat.zero_add]

/-- Steps as a walk shows them that is begun at the first of them: counted from its index, with
nothing behind it, and with this character there. -/
def restarted (start : Nat) (first : Char) (steps : List Step) : List Step :=
  ((steps.map (since start)).modify 0 fun s =>
      { s with previous := sentinel, current := first, atLineStart := true }).modify 1 fun s =>
    { s with previous := first }

theorem ofLogicalRestarted (start : Nat) {first : Char} (previous : Char) (atLineStart : Bool)
    {all : List Logical} (kind : ∀ l ∈ all.head?, isTerminator first = isTerminator l.char) :
    ofLogical sentinel true (Logical.restarted start first all) =
      restarted start first (ofLogical previous atLineStart all) := by
  rw [restarted, ofLogicalSince, Logical.restarted]
  cases all with
  | nil => rfl
  | cons l rest =>
    have same : isTerminator first = isTerminator l.char := kind l rfl
    cases rest with
    | nil => simp [ofLogical, Logical.since, same]
    | cons m rest => simp [ofLogical, Logical.since, same]

theorem restartedEndings {start : Nat} {first : Char} {steps : List Step}
    (kind : ∀ s ∈ steps.head?, isTerminator first = isTerminator s.current) :
    (restarted start first steps).countP (fun s => isTerminator s.current) =
      steps.countP fun s => isTerminator s.current := by
  match steps with
  | [] => rfl
  | [s] => simp [restarted, since, kind s rfl]
  | s :: t :: rest =>
    simp [restarted, since, List.countP_cons, List.countP_map, Function.comp_def, kind s rfl]

end Step

namespace Cursor

def first (c : Cursor) : Char := if c.OnPair then '\n' else c.current

theorem firstKind (c : Cursor) : isTerminator c.first = isTerminator c.current := by
  rw [first]
  split
  · rename_i pair
    rw [pair.1]
    rfl
  · rfl

end Cursor

namespace Logical
open Cursor (PairAt placed rawAt standing)

theorem ofRest {text : List Char} {place : Nat} (inside : place < (ofText text).length) :
    ofText (text.drop (placed text place).index) =
      restarted (placed text place).index (placed text place).first ((ofText text).drop place) := by
  have here := (placeIff text place).mp inside
  rw [Cursor.placedStanding, ← numberBegins text place, Cursor.first, restarted]
  generalize begins text.toArray place = start at here ⊢
  rcases Decidable.em (PairAt text.toArray start) with pair | single
  · have rest : text.drop (start + 1) = '\n' :: text.drop (start + 2) := by
      rw [← List.tail_drop, Cursor.dropPair pair, List.tail_cons]
    have index : start + 2 = 1 + (start + 1) := by omega
    rw [if_pos (Cursor.standingOnPair.mpr pair), standing, Cursor.lastOfPair pair, Cursor.dropPair pair,
      numberPair, List.map_cons, List.modify_zero_cons, rest, ofText, numberSingle (by simp), index,
      numberSince]
    simp [since]
  · obtain ⟨rest, alone⟩ := Cursor.dropSingle here single
    have same := numberSince start 0 (text.drop start)
    rw [Nat.zero_add] at same
    rw [if_neg (mt Cursor.standingOnPair.mp single), standing, Cursor.lastOfSingle single, same, ofText,
      rest, numberSingle alone, List.modify_zero_cons]

end Logical

namespace Step
open Cursor (placed)

theorem ofRemaining {text : String} {place : Nat}
    (inside : place < (Logical.ofText text.toList).length) :
    ofText (placed text.toList place).remaining =
      restarted (placed text.toList place).index (placed text.toList place).first
        ((ofText text).drop place) := by
  have kind : ∀ l ∈ ((Logical.ofText text.toList).drop place).head?,
      isTerminator (placed text.toList place).first = isTerminator l.char := by
    intro l own
    rw [List.head?_drop, Option.mem_def] at own
    rw [Cursor.firstKind, Cursor.placedCurrent, Logical.slot, own]
    rfl
  have all := dropSteps (placed text.toList place).remaining 0
  rw [List.drop_zero, List.drop_zero, Cursor.remaining, String.toList_ofList, Cursor.placedText,
    Logical.ofRest inside] at all
  rw [Cursor.remaining, Cursor.placedText, all, dropSteps text place]
  exact ofLogicalRestarted _ _ _ kind

theorem stepAt (text : String) (place : Nat) (s : Step) :
    (ofText text)[place]? = some s ↔
      place < (Logical.ofText text.toList).length ∧ ofCursor (placed text.toList place) = s := by
  rw [ofTextPlaced, List.getElem?_map, Option.map_eq_some_iff]
  constructor
  · rintro ⟨own, found, rfl⟩
    obtain ⟨inside, same⟩ := List.getElem?_eq_some_iff.mp found
    rw [List.getElem_range] at same
    rw [List.length_range] at inside
    subst same
    exact ⟨inside, rfl⟩
  · rintro ⟨inside, same⟩
    exact ⟨place, List.getElem?_range inside, same⟩

theorem ofCursorOnce {c d : Cursor} (text : c.text = d.text) (same : ofCursor c = ofCursor d) :
    c = d := by
  cases c
  cases d
  simp_all [ofCursor]

theorem restartGoesOn {text : String} {motions : List Motion}
    (more : (motions.foldl Cursor.move (Cursor.ofText text)).hasMore) :
    let c := motions.foldl Cursor.move (Cursor.ofText text)
    (∃ place : Nat, (ofText text)[place]? = some (ofCursor c)) ∧
    ∀ place : Nat, (ofText text)[place]? = some (ofCursor c) →
      ofText c.remaining = restarted c.index c.first ((ofText text).drop place) ∧
      (ofText c.remaining).length = (ofText text).length - place ∧
      ((ofText c.remaining).countP fun s => isTerminator s.current) =
        ((ofText text).drop place).countP fun s => isTerminator s.current := by
  intro c
  have here : c = placed text.toList (motions.foldl (Logical.move (Logical.ofText text.toList)) 0) := by
    rw [← Cursor.walkPlaced, ← Cursor.ofTextPlaced]
  constructor
  · refine ⟨_, (stepAt _ _ _).mpr ⟨?_, congrArg ofCursor here.symm⟩⟩
    rwa [← Cursor.placedHasMore, ← here]
  · intro place own
    obtain ⟨inside, same⟩ := (stepAt _ _ _).mp own
    have standing : placed text.toList place = c := ofCursorOnce (by rw [here]; rfl) same
    have steps := ofRemaining inside
    rw [standing] at steps
    have kind : ∀ s ∈ ((ofText text).drop place).head?, isTerminator c.first = isTerminator s.current := by
      intro s head
      rw [List.head?_drop, own] at head
      cases head
      exact Cursor.firstKind c
    refine ⟨steps, ?_, ?_⟩
    · rw [steps, restarted]
      simp
    · rw [steps, restartedEndings kind]

/- On a pair in the middle: its LF ends the first line of what remains. -/
theorem restartGoesOnFromPair :
    let text := "a\r\nb\r"
    let c := [Motion.advance].foldl Cursor.move (Cursor.ofText text)
    c.hasMore ∧ c.remaining = "\nb\r" ∧ (ofText text)[1]? = some (ofCursor c) ∧
    ofText "\nb\r" = restarted 2 '\n' ((ofText text).drop 1) ∧
    (ofText text).drop 1 = [⟨2, 'a', '\r', 'b', false, true⟩, ⟨3, '\r', 'b', '\r', true, false⟩,
      ⟨4, 'b', '\r', sentinel, false, true⟩] ∧
    ofText "\nb\r" = [⟨0, sentinel, '\n', 'b', true, true⟩, ⟨1, '\n', 'b', '\r', true, false⟩,
      ⟨2, 'b', '\r', sentinel, false, true⟩] := by
  intro text c
  have more : c.hasMore := by decide
  have steps : ofText text = [⟨0, sentinel, 'a', '\r', true, false⟩, ⟨2, 'a', '\r', 'b', false, true⟩,
      ⟨3, '\r', 'b', '\r', true, false⟩, ⟨4, 'b', '\r', sentinel, false, true⟩] := by
    rw [ofTextPlaced]
    decide
  have own : ofCursor c = ⟨2, 'a', '\r', 'b', false, true⟩ := by decide
  have here : (ofText text)[1]? = some (ofCursor c) := by
    rw [steps, own]
    rfl
  have remaining : c.remaining = "\nb\r" := by decide
  have index : c.index = 2 := by decide
  have first : c.first = '\n' := by decide
  have restart := ((restartGoesOn more).2 1 here).1
  rw [remaining, index, first] at restart
  refine ⟨more, remaining, here, restart, by rw [steps]; rfl, ?_⟩
  rw [restart, steps]
  decide

end Step
end TextCursor
