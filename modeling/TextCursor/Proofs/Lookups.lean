import TextCursor.Cursor.Describe
import TextCursor.Proofs.Places

/-! What a cursor sees around its place. Offsets of a machine word are as good as integers: where adding
to one stops at the largest, and where a word cannot hold an index, the position that is meant lies
outside the text, where there are sentinels only. The slots hold logical characters and the rest is read
from the raw text, so the two agree as long as no terminator has been passed. -/
namespace TextCursor
open Character (sentinel isTerminator)

theorem Offset.furtherInt (offset : Int64) (steps : Nat) :
    (further offset steps).toInt = min (offset.toInt + steps) Int64.maxValue.toInt := by
  have least := offset.le_toInt
  have largest := Int64.toInt_maxValue
  unfold further
  split
  · rename_i within
    rw [Int64.toInt_ofInt_of_le (by omega) (by omega), Int.min_eq_left within]
  · rename_i beyond
    rw [Int.min_eq_right (by omega)]

namespace Cursor

def rawAnywhere (text : Array Char) (position : Int) : Char :=
  if 0 ≤ position then rawAt text position.toNat else sentinel

theorem anywhereBehind {text : Array Char} {position : Int} (behind : text.size ≤ position) :
    rawAnywhere text position = sentinel := by
  unfold rawAnywhere
  split
  · exact rawAtOutside (by omega)
  · rfl

theorem anywhereInside (text : Array Char) (index : Nat) :
    rawAnywhere text index = rawAt text index := by
  rw [rawAnywhere, if_pos (Int.natCast_nonneg index), Int.toNat_natCast]

theorem charAtExact {c : Cursor} (held : c.index ≤ Offset.reach) (offset : Int64) :
    c.charAt offset = rawAnywhere c.text (c.index + offset.toInt) := by
  have most := offset.toInt_lt
  have word : (c.index : Int) + offset.toInt < UInt64.size := by
    unfold Offset.reach UInt64.size at held
    unfold UInt64.size
    omega
  rw [charAt, Offset.from?, rawAnywhere]
  by_cases inside : 0 ≤ (c.index : Int) + offset.toInt
  · simp only [inside, word, and_self, if_true]
  · simp only [inside, false_and, if_false]

section
variable {c : Cursor} (inside : c.index ≤ c.text.size) (held : c.text.size < Offset.reach)
include inside held

theorem charAtFurther (offset : Int64) (steps : Nat) :
    c.charAt (Offset.further offset steps) =
      rawAnywhere c.text (c.index + offset.toInt + steps) := by
  have largest := Int64.toInt_maxValue
  rw [charAtExact (by omega), Offset.furtherInt]
  rcases Int.le_total (offset.toInt + steps) Int64.maxValue.toInt with within | beyond
  · rw [Int.min_eq_left within, Int.add_assoc]
  · have ended : (c.text.size : Int) ≤ Int64.maxValue.toInt := by
      unfold Offset.reach UInt64.size at held
      omega
    rw [Int.min_eq_right beyond, anywhereBehind (by omega), anywhereBehind (by omega)]

end

end Cursor

def Logical.slotsMatch (all : List Logical) (place : Nat) (needle : List Char) : Bool :=
  !needle.isEmpty && needle.zipIdx.all fun (expected, i) => expected == slot all (place + i)

namespace Cursor
open Logical (slot begins slotsMatch)

theorem charAtAhead {c : Cursor} (held : c.index ≤ Offset.reach) {ahead : Nat}
    (near : ahead < Offset.reach) : c.charAt (Int64.ofNat ahead) = rawAt c.text (c.index + ahead) := by
  have offset : (Int64.ofNat ahead).toInt = ahead := Int64.toInt_ofNat_of_lt near
  rw [charAtExact held, offset, ← Int.natCast_add, anywhereInside]

theorem indexInside (text : List Char) (place : Nat) : (placed text place).index ≤ text.length := by
  rcases Nat.lt_or_ge place (Logical.ofText text).length with inside | outside
  · have more := hasMoreIff.mp ((placedHasMore text place).mpr inside)
    rw [placedText, List.size_toArray] at more
    exact Nat.le_of_lt more
  · exact Nat.le_of_eq (congrArg Cursor.index (placedOutside outside))

theorem singlePlain {text : List Char} {place : Nat}
    (plain : isTerminator (slot (Logical.ofText text) place) = false) :
    ¬PairAt text.toArray (begins text.toArray place) := by
  rintro ⟨carriage, _⟩
  rw [Logical.slotBegins, carriage] at plain
  contradiction

theorem indexPlain {text : List Char} {place : Nat}
    (plain : isTerminator (slot (Logical.ofText text) place) = false) :
    (placed text place).index = begins text.toArray place := by
  rw [placedStanding]
  exact lastOfSingle (singlePlain plain)

theorem beginsPlain {text : List Char} {place ahead : Nat}
    (plain : ∀ i < ahead, isTerminator (slot (Logical.ofText text) (place + i)) = false) :
    begins text.toArray (place + ahead) = min (begins text.toArray place + ahead) text.length := by
  induction ahead with
  | zero =>
    have bound := Logical.beginsInside text.toArray place
    rw [List.size_toArray] at bound
    exact (Nat.min_eq_left bound).symm
  | succ ahead ih =>
    have before := ih fun i near => plain i (Nat.lt_succ_of_lt near)
    have single := singlePlain (plain ahead (Nat.lt_succ_self ahead))
    rw [← Nat.add_assoc, begins, lastOfSingle single, before, List.size_toArray]
    omega

theorem rawPlain {text : List Char} {place ahead : Nat}
    (plain : ∀ i < ahead, isTerminator (slot (Logical.ofText text) (place + i)) = false) :
    rawAt text.toArray (begins text.toArray place + ahead) =
      slot (Logical.ofText text) (place + ahead) := by
  rw [Logical.slotBegins, beginsPlain plain]
  rcases Nat.le_total (begins text.toArray place + ahead) text.length with inside | outside
  · rw [Nat.min_eq_left inside]
  · rw [Nat.min_eq_right outside, rawAtOutside (by simpa using outside), rawAtOutside (by simp)]

theorem readBehind {text : List Char} {place passed : Nat} (held : text.length ≤ Offset.reach)
    (moved : 0 < passed) (near : passed < Offset.reach)
    (plain : ∀ i < passed, isTerminator (slot (Logical.ofText text) (place + i)) = false) :
    (placed text place).charAt (Int64.ofNat passed) =
      slot (Logical.ofText text) (place + passed) := by
  have inside := Nat.le_trans (indexInside text place) held
  have here := indexPlain (plain 0 moved)
  rw [Nat.add_zero] at here
  rw [charAtAhead inside near, here, placedText, rawPlain plain]

theorem restPlain {text : List Char} {place passed : Nat} {needle : List Char}
    (held : text.length ≤ Offset.reach) (short : passed + needle.length ≤ Offset.reach)
    (moved : 0 < passed) (needlePlain : ∀ c ∈ needle, isTerminator c = false)
    (plain : ∀ i < passed, isTerminator (slot (Logical.ofText text) (place + i)) = false) :
    ((needle.zipIdx passed).all fun (expected, i) =>
        expected == (placed text place).charAt (Int64.ofNat i)) =
      (needle.zipIdx passed).all fun (expected, i) =>
        expected == slot (Logical.ofText text) (place + i) := by
  induction needle generalizing passed with
  | nil => rfl
  | cons c needle ih =>
    rw [List.length_cons] at short
    simp only [List.zipIdx_cons, List.all_cons, readBehind held moved (by omega) plain]
    cases same : c == slot (Logical.ofText text) (place + passed) with
    | false => rfl
    | true =>
      have further : ∀ i < passed + 1, isTerminator (slot (Logical.ofText text) (place + i)) = false := by
        intro i near
        rcases Nat.lt_succ_iff_lt_or_eq.mp near with before | rfl
        · exact plain i before
        · rw [← eq_of_beq same]
          exact needlePlain c List.mem_cons_self
      rw [ih (by omega) (Nat.succ_pos _) (fun d member => needlePlain d (List.mem_cons_of_mem c member))
        further]

theorem matchesTextPlain {text : List Char} {place : Nat} {needle : String}
    (held : text.length ≤ Offset.reach) (short : needle.length ≤ Offset.reach)
    (plain : ∀ c ∈ needle.toList, isTerminator c = false) :
    (placed text place).matchesText (some needle) =
      slotsMatch (Logical.ofText text) place needle.toList := by
  rw [← String.length_toList] at short
  simp only [matchesText, slotsMatch, placedCurrent, placedNext]
  generalize needle.toList = chars at short plain
  match chars with
  | [] => rfl
  | [first] => simp
  | first :: second :: rest =>
    simp only [List.zipIdx_cons, List.all_cons, List.isEmpty_cons, Bool.not_false, Bool.true_and,
      Nat.add_zero, Nat.zero_add, ← Bool.and_assoc]
    cases two : first == slot (Logical.ofText text) place &&
        second == slot (Logical.ofText text) (place + 1) with
    | false => rfl
    | true =>
      obtain ⟨same, next⟩ := Bool.and_eq_true_iff.mp two
      have passed : ∀ i < 2, isTerminator (slot (Logical.ofText text) (place + i)) = false := by
        intro i near
        match i with
        | 0 => exact (eq_of_beq same) ▸ plain first List.mem_cons_self
        | 1 => exact (eq_of_beq next) ▸ plain second (by simp)
      have restShort : 2 + rest.length ≤ Offset.reach := by
        simp only [List.length_cons] at short
        omega
      rw [restPlain held restShort (by decide) (fun c member => plain c (by simp [member])) passed]

end Cursor
end TextCursor
