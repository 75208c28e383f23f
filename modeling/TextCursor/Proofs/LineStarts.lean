import TextCursor.Proofs.Motions
import TextCursor.Proofs.StepTable
import TextCursor.Summary

/-! Going from line to line, and the reports that are made on the way through every character. A
loop that goes to the next line as long as there is more stands on the line starts of the text, each
once, and these are the lines that are counted. -/
namespace TextCursor

namespace Cursor
open Character (isTerminator)
open Logical (slot)

def starts (text : List Char) (place : Nat) : List Cursor :=
  ((List.range' place ((Logical.ofText text).length - place)).map (placed text)).filter
    (·.atLineStart)

theorem startsAtEnd {text : List Char} {place : Nat} (outside : (Logical.ofText text).length ≤ place) :
    starts text place = [] := by
  rw [starts, Nat.sub_eq_zero_of_le outside]
  rfl

theorem startsCons {text : List Char} {place : Nat} (inside : place < (Logical.ofText text).length) :
    starts text place =
      if (placed text place).atLineStart then placed text place :: starts text (place + 1)
      else starts text (place + 1) := by
  have count : (Logical.ofText text).length - place = (Logical.ofText text).length - (place + 1) + 1 := by
    omega
  rw [starts, count, List.range'_succ, List.map_cons, List.filter_cons]
  rfl

theorem startsNextLine {text : List Char} {place : Nat}
    (inside : place < (Logical.ofText text).length) :
    Logical.nextLine (Logical.ofText text) place ≤ (Logical.ofText text).length ∧
    starts text (Logical.nextLine (Logical.ofText text) place) = starts text (place + 1) ∧
    ((placed text (Logical.nextLine (Logical.ofText text) place)).hasMore →
      (placed text (Logical.nextLine (Logical.ofText text) place)).atLineStart) := by
  generalize left : (Logical.ofText text).length - place = count
  induction count generalizing place with
  | zero => omega
  | succ count ih =>
    have start : (placed text (place + 1)).atLineStart =
        isTerminator (slot (Logical.ofText text) place) := rfl
    cases ends : isTerminator (slot (Logical.ofText text) place) with
    | true =>
      rw [Logical.nextLineStops (.inl ends), start, ends]
      exact ⟨inside, rfl, fun _ => rfl⟩
    | false =>
      rcases Nat.lt_or_ge (place + 1) (Logical.ofText text).length with further | last
      · obtain ⟨bound, same, starting⟩ := ih further (by omega)
        rw [Logical.nextLineGoesOn ends further, startsCons further, start, ends, same]
        exact ⟨bound, rfl, starting⟩
      · rw [Logical.nextLineStops (.inr last), placedHasMore]
        exact ⟨inside, rfl, fun more => absurd more (Nat.not_lt.mpr last)⟩

theorem nextLineRuns {text : List Char} {place : Nat} (bound : place ≤ (Logical.ofText text).length)
    (starting : (placed text place).hasMore → (placed text place).atLineStart) :
    Rounds hasMore nextLine (placed text place) (starts text place)
      (placed text (Logical.ofText text).length) := by
  generalize left : (Logical.ofText text).length - place = count
  induction count using Nat.strongRecOn generalizing place with
  | ind count ih =>
    rcases Nat.lt_or_eq_of_le bound with inside | rfl
    · have more := (placedHasMore text place).mpr inside
      obtain ⟨within, behind, start⟩ := startsNextLine inside
      rw [startsCons inside, if_pos (starting more), ← behind]
      refine .round more ?_
      rw [nextLinePlaced]
      refine ih _ ?_ within start rfl
      have later : place + 1 ≤ Logical.nextLine (Logical.ofText text) place := Nat.le_max_left _ _
      omega
    · have done : ¬(placed text (Logical.ofText text).length).hasMore := by
        rw [placedHasMore]
        exact Nat.lt_irrefl _
      rw [startsAtEnd (Nat.le_refl _)]
      exact .ended (by simpa using done)

end Cursor

namespace Summary

theorem countCharLines (t : Tally) (c : Cursor) :
    (t.countChar c).summary.lines = t.summary.lines ∧
    (t.countChar c).summary.blankLines = t.summary.blankLines := by
  unfold Tally.countChar
  split
  · split <;> exact ⟨rfl, rfl⟩
  · exact ⟨rfl, rfl⟩

theorem stepLines (t : Tally) (c : Cursor) :
    (t.step c).summary.lines = t.summary.lines + (if c.atLineStart then 1 else 0) ∧
    (t.step c).summary.blankLines =
      t.summary.blankLines + (if c.atLineEnd && c.atLineStart then 1 else 0) := by
  rw [Tally.step, (countCharLines _ c).1, (countCharLines _ c).2, Tally.startLine]
  cases start : c.atLineStart with
  | false => simp
  | true => cases stop : c.atLineEnd <;> simp

theorem foldLines (t : Tally) (cursors : List Cursor) :
    (cursors.foldl Tally.step t).summary.lines =
      t.summary.lines + cursors.countP Cursor.atLineStart ∧
    (cursors.foldl Tally.step t).summary.blankLines =
      t.summary.blankLines + cursors.countP fun c => c.atLineEnd && c.atLineStart := by
  induction cursors generalizing t with
  | nil => exact ⟨rfl, rfl⟩
  | cons c cursors ih =>
    obtain ⟨lines, blank⟩ := stepLines t c
    obtain ⟨further, furtherBlank⟩ := ih (t.step c)
    rw [List.foldl_cons, further, furtherBlank, lines, blank, List.countP_cons, List.countP_cons]
    omega

theorem ofTextStarts (text : String) :
    (ofText text).lines = (Cursor.starts text.toList 0).length ∧
    (ofText text).blankLines = (Cursor.starts text.toList 0).countP Cursor.atLineEnd := by
  obtain ⟨lines, blank⟩ := foldLines {} ((List.range' 0 (Logical.ofText text.toList).length).map
    (Cursor.placed text.toList))
  rw [ofText, Cursor.ofTextPlaced, Cursor.foldPlaced, Nat.sub_zero, lines, blank, Cursor.starts,
    Nat.sub_zero, ← List.countP_eq_length_filter, List.countP_filter]
  exact ⟨Nat.zero_add _, Nat.zero_add _⟩

end Summary

theorem Step.startSteps (text : String) :
    (Step.ofText text).filter Step.atLineStart =
      (Cursor.starts text.toList 0).map Step.ofCursor := by
  have steps : Step.ofText text = ((List.range' 0 (Logical.ofText text.toList).length).map
      (Cursor.placed text.toList)).map Step.ofCursor := by
    rw [Step.ofTextPlaced, List.range_eq_range', List.map_map]
    rfl
  rw [steps, List.filter_map]
  rfl

theorem linesVisited (text : String) :
    ∃ rounds last,
      (∀ others final, Rounds Cursor.hasMore Cursor.nextLine (Cursor.ofText text) others final ↔
        others = rounds ∧ final = last) ∧
      rounds.length = (Summary.ofText text).lines ∧
      rounds.map Step.ofCursor = (Step.ofText text).filter Step.atLineStart ∧
      (Summary.ofText text).blankLines =
        ((Step.ofText text).filter Step.atLineStart).countP Step.atLineEnd := by
  have first : Cursor.ofText text = Cursor.placed text.toList 0 := Cursor.ofTextPlaced text
  have runs : Rounds Cursor.hasMore Cursor.nextLine (Cursor.placed text.toList 0)
      (Cursor.starts text.toList 0)
      (Cursor.placed text.toList (Logical.ofText text.toList).length) :=
    Cursor.nextLineRuns (Nat.zero_le _) fun _ => rfl
  obtain ⟨lines, blank⟩ := Summary.ofTextStarts text
  refine ⟨Cursor.starts text.toList 0, Cursor.placed text.toList (Logical.ofText text.toList).length,
    ?run, lines.symm, (Step.startSteps text).symm, ?blank⟩
  case run =>
    intro others final
    rw [first]
    constructor
    · exact runs.once
    · rintro ⟨rfl, rfl⟩
      exact runs
  case blank =>
    rw [blank, Step.startSteps, List.countP_map]
    rfl

end TextCursor
