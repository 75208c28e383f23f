import TextCursor.Proofs.Lookups
import TextCursor.Proofs.Motions
import TextCursor.Summary

/-! How lines are ended does not matter. Two texts that differ only in that are walked in step: the
same motions lead to the same place of both, though the raw indices drift apart, and what can be
asked there has the same answer. Only the count of pairs tells the two apart. -/
namespace TextCursor
open Character (sentinel isBlank isTerminator)

namespace Character

def unified (c : Char) : Char := if isTerminator c then '\n' else c

theorem terminatorUnified (c : Char) : isTerminator (unified c) = isTerminator c := by
  unfold unified
  split
  · rename_i ends
    rw [ends]
    rfl
  · rfl

theorem blankUnified (c : Char) : isBlank (unified c) = isBlank c := by
  unfold unified
  split
  · rename_i ends
    cases blank : isBlank c with
    | false => rfl
    | true => simp [blankNotTerminator blank] at ends
  · rfl

theorem sameTerminator {c d : Char} (same : unified c = unified d) :
    isTerminator c = isTerminator d := by
  rw [← terminatorUnified c, same, terminatorUnified]

theorem samePlain {c d e : Char} (same : unified c = unified d) (plain : isTerminator e = false) :
    (e == c) = (e == d) := by
  have kind := sameTerminator same
  unfold unified at same
  cases ends : isTerminator c with
  | false =>
    rw [ends] at kind
    simp only [ends, ← kind, Bool.false_eq_true, if_false] at same
    rw [same]
  | true =>
    rw [ends] at kind
    have differs {x : Char} (terminator : isTerminator x = true) : (e == x) = false := by
      rw [beq_eq_false_iff_ne]
      rintro rfl
      rw [plain] at terminator
      contradiction
    rw [differs ends, differs kind.symm]

end Character

namespace Logical
open Character (unified)

def SameButEndings (text₁ text₂ : List Char) : Prop :=
  (collapse text₁).map unified = (collapse text₂).map unified
instance (text₁ text₂) : Decidable (SameButEndings text₁ text₂) := by
  unfold SameButEndings; infer_instance

theorem stretchUnified {kind : Char → Bool} (regardless : ∀ c, kind (unified c) = kind c)
    (text : List Char) (place : Nat) :
    stretch kind (ofText text) place =
      ((((collapse text).map unified).drop place).takeWhile kind).length := by
  have through : kind ∘ unified = kind := funext regardless
  rw [← List.map_drop, List.takeWhile_map, through, List.length_map, collapse, ← List.map_drop,
    List.takeWhile_map, List.length_map]
  rfl

theorem slotUnified (text : List Char) (place : Nat) :
    unified (slot (ofText text) place) =
      ((collapse text).map unified)[place]?.getD (unified sentinel) := by
  cases found : (ofText text)[place]? <;> simp [collapse, slot, found]

section
variable {text₁ text₂ : List Char} (same : SameButEndings text₁ text₂)
include same

theorem sameLength : (ofText text₁).length = (ofText text₂).length := by
  simpa [collapse] using congrArg List.length same

theorem sameStretch {kind : Char → Bool} (regardless : ∀ c, kind (unified c) = kind c) (place : Nat) :
    stretch kind (ofText text₁) place = stretch kind (ofText text₂) place := by
  rw [stretchUnified regardless, stretchUnified regardless, same]

theorem sameSlot (place : Nat) :
    unified (slot (ofText text₁) place) = unified (slot (ofText text₂) place) := by
  rw [slotUnified, slotUnified, same]

theorem sameBefore (place : Nat) :
    unified (before (ofText text₁) place) = unified (before (ofText text₂) place) := by
  cases place with
  | zero => rfl
  | succ place => exact sameSlot same place

theorem sameBlanks (place : Nat) : blanks (ofText text₁) place = blanks (ofText text₂) place :=
  sameStretch same Character.blankUnified place

theorem sameNextLine (place : Nat) :
    nextLine (ofText text₁) place = nextLine (ofText text₂) place := by
  have unended : unended (ofText text₁) place = unended (ofText text₂) place :=
    sameStretch same (fun c => congrArg not (Character.terminatorUnified c)) place
  rw [nextLine, nextLine, unended, sameLength same]

theorem sameMove (place : Nat) (motion : Motion) :
    move (ofText text₁) place motion = move (ofText text₂) place motion := by
  cases motion with
  | advance => rfl
  | advanceBy count => rfl
  | skipBlanks => exact congrArg (place + ·) (sameBlanks same place)
  | nextLine => exact sameNextLine same place

theorem sameWalk (place : Nat) (motions : List Motion) :
    motions.foldl (move (ofText text₁)) place = motions.foldl (move (ofText text₂)) place := by
  induction motions generalizing place with
  | nil => rfl
  | cons motion motions ih => rw [List.foldl_cons, List.foldl_cons, sameMove same, ih]

theorem sameSlots (place : Nat) {needle : List Char}
    (plain : ∀ c ∈ needle, isTerminator c = false) :
    slotsMatch (ofText text₁) place needle = slotsMatch (ofText text₂) place needle := by
  unfold slotsMatch
  generalize 0 = start
  congr 1
  induction needle generalizing start with
  | nil => rfl
  | cons c needle ih =>
    have here := Character.samePlain (sameSlot same (place + start)) (plain c List.mem_cons_self)
    have behind := ih (fun d member => plain d (List.mem_cons_of_mem c member)) (start + 1)
    simp only [List.zipIdx_cons, List.all_cons, here, behind]

end

end Logical

namespace Cursor
open Character (unified)

/- What can be asked of a cursor has one answer for both. Text is compared by its offsets, which
reach over whatever is held in memory. -/
structure Agrees (c₁ c₂ : Cursor) : Prop where
  hasMore : c₁.hasMore = c₂.hasMore
  atLineStart : c₁.atLineStart = c₂.atLineStart
  atLineEnd : c₁.atLineEnd = c₂.atLineEnd
  previous : unified c₁.previous = unified c₂.previous
  current : unified c₁.current = unified c₂.current
  next : unified c₁.next = unified c₂.next
  skipped : c₁.skipBlanks.1 = c₂.skipBlanks.1
  matching : c₁.text.size ≤ Offset.reach → c₂.text.size ≤ Offset.reach → ∀ needle : String,
    needle.length ≤ Offset.reach → (∀ c ∈ needle.toList, isTerminator c = false) →
    c₁.matchesText (some needle) = c₂.matchesText (some needle)

theorem placedAgree {text₁ text₂ : List Char} (same : Logical.SameButEndings text₁ text₂)
    (place : Nat) : Agrees (placed text₁ place) (placed text₂ place) where
  hasMore := by
    rw [Bool.eq_iff_iff, placedHasMore, placedHasMore, Logical.sameLength same]
  atLineStart := by
    have behind := Character.sameTerminator (Logical.sameBefore same place)
    simp only [placed, behind]
  atLineEnd := by
    have here := Character.sameTerminator (Logical.sameSlot same place)
    simp only [placed, here, Logical.sameLength same]
  previous := Logical.sameBefore same place
  current := Logical.sameSlot same place
  next := Logical.sameSlot same (place + 1)
  skipped := by
    rw [skipBlanksPlaced, skipBlanksPlaced]
    exact Logical.sameBlanks same place
  matching := by
    intro held₁ held₂ needle short plain
    rw [placedText, List.size_toArray] at held₁ held₂
    rw [matchesTextPlain held₁ short plain, matchesTextPlain held₂ short plain]
    exact Logical.sameSlots same place plain

theorem walksAgree {text₁ text₂ : String}
    (same : Logical.SameButEndings text₁.toList text₂.toList) (motions : List Motion) :
    Agrees (motions.foldl move (ofText text₁)) (motions.foldl move (ofText text₂)) := by
  rw [ofTextPlaced, ofTextPlaced, walkPlaced, walkPlaced, Logical.sameWalk same]
  exact placedAgree same _

end Cursor

namespace Summary

namespace Tally

def unpaired (t : Tally) : Tally := { t with summary.pairs := 0 }

theorem unpairedIff {t₁ t₂ : Tally} : t₁.unpaired = t₂.unpaired ↔
    t₁.summary.logicalChars = t₂.summary.logicalChars ∧ t₁.summary.lines = t₂.summary.lines ∧
      t₁.summary.blankLines = t₂.summary.blankLines ∧
      t₁.summary.longestLine = t₂.summary.longestLine ∧ t₁.lineLength = t₂.lineLength := by
  simp [unpaired, and_assoc]

theorem startLineUnpaired {t₁ t₂ : Tally} (same : t₁.unpaired = t₂.unpaired) {c₁ c₂ : Cursor}
    (start : c₁.atLineStart = c₂.atLineStart) (stop : c₁.atLineEnd = c₂.atLineEnd) :
    (t₁.startLine c₁).unpaired = (t₂.startLine c₂).unpaired := by
  rw [unpairedIff] at same
  unfold startLine
  rw [start, stop]
  split
  · simp [unpairedIff, same]
  · exact unpairedIff.mpr same

theorem countCharUnpaired {t₁ t₂ : Tally} (same : t₁.unpaired = t₂.unpaired) {c₁ c₂ : Cursor}
    (kind : isTerminator c₁.current = isTerminator c₂.current) :
    (t₁.countChar c₁).unpaired = (t₂.countChar c₂).unpaired := by
  have counted (t : Tally) (c : Cursor) (ends : isTerminator c.current = true) :
      (t.countChar c).unpaired = t.unpaired := by
    rw [countChar, if_pos ends]
    split <;> rfl
  cases ends : isTerminator c₂.current with
  | true => rw [counted t₁ c₁ (kind.trans ends), counted t₂ c₂ ends, same]
  | false =>
    rw [unpairedIff] at same
    simp [countChar, unpairedIff, kind, ends, same]

theorem stepUnpaired {t₁ t₂ : Tally} (same : t₁.unpaired = t₂.unpaired) {c₁ c₂ : Cursor}
    (agree : Cursor.Agrees c₁ c₂) : (t₁.step c₁).unpaired = (t₂.step c₂).unpaired := by
  refine countCharUnpaired (startLineUnpaired ?_ agree.atLineStart agree.atLineEnd)
    (Character.sameTerminator agree.current)
  rw [unpairedIff] at same ⊢
  simp [same]

end Tally

theorem ofTextUnpaired {text₁ text₂ : String}
    (same : Logical.SameButEndings text₁.toList text₂.toList) :
    { ofText text₁ with pairs := 0 } = { ofText text₂ with pairs := 0 } := by
  have tallies : ((Cursor.ofText text₁).fold Tally.step {}).unpaired =
      ((Cursor.ofText text₂).fold Tally.step {}).unpaired := by
    rw [Cursor.ofTextPlaced, Cursor.ofTextPlaced, Cursor.foldPlaced, Cursor.foldPlaced,
      Logical.sameLength same, List.foldl_map, List.foldl_map]
    refine List.foldl_rel (r := fun t₁ t₂ : Tally => t₁.unpaired = t₂.unpaired) rfl ?_
    intro place _ t₁ t₂ before
    exact Tally.stepUnpaired before (Cursor.placedAgree same place)
  exact congrArg Tally.summary tallies

end Summary

theorem endingsDoNotMatter {text₁ text₂ : String}
    (same : Logical.SameButEndings text₁.toList text₂.toList) :
    (∀ motions : List Motion, Cursor.Agrees (motions.foldl Cursor.move (Cursor.ofText text₁))
      (motions.foldl Cursor.move (Cursor.ofText text₂))) ∧
    { Summary.ofText text₁ with pairs := 0 } = { Summary.ofText text₂ with pairs := 0 } :=
  ⟨Cursor.walksAgree same, Summary.ofTextUnpaired same⟩

theorem endingsDoNotMatterMixed :
    Logical.SameButEndings "a\r\n\tb\n\r\n\x00".toList "a\n\tb\r\n\r\x00".toList ∧
    (∀ motions : List Motion,
      Cursor.Agrees (motions.foldl Cursor.move (Cursor.ofText "a\r\n\tb\n\r\n\x00"))
        (motions.foldl Cursor.move (Cursor.ofText "a\n\tb\r\n\r\x00"))) ∧
    { Summary.ofText "a\r\n\tb\n\r\n\x00" with pairs := 0 } =
      { Summary.ofText "a\n\tb\r\n\r\x00" with pairs := 0 } := by
  have same : Logical.SameButEndings "a\r\n\tb\n\r\n\x00".toList "a\n\tb\r\n\r\x00".toList := by decide
  exact ⟨same, endingsDoNotMatter same⟩

end TextCursor
