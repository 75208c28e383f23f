import TextCursor.Proofs.Places
import TextCursor.Step

/-! The step table loses nothing. A printed step can be read back, whatever it holds: the number may
outgrow its column, a column may be filled with the blanks that it shows, and no two characters fill a
cell alike. Each step gives the index and the character of a logical character, and an index that moves
by two the LF that was stepped over. -/
namespace TextCursor.Step
open Character (sentinel isTerminator shown)
open Text (alignLeft alignRight)

def cell (c : Char) : List Char := (alignLeft 6 (shown c)).toList

def named : List Char := [sentinel, '\n', '\r', '\t']

theorem cellsNamed : named.map cell =
    [['<', 'n', 'o', 'n', 'e', '>'], ['\\', 'n', ' ', ' ', ' ', ' '],
      ['\\', 'r', ' ', ' ', ' ', ' '], ['\\', 't', ' ', ' ', ' ', ' ']] := rfl

theorem cellUnnamed {c : Char} (unnamed : c ∉ named) : cell c = [c, ' ', ' ', ' ', ' ', ' '] := by
  simp only [named, List.mem_cons, List.not_mem_nil, or_false, not_or] at unnamed
  obtain ⟨some, lineFeed, carriage, tab⟩ := unnamed
  simp [cell, shown, some, lineFeed, carriage, tab, alignLeft]

theorem cellLength (c : Char) : (cell c).length = 6 := by
  rcases Decidable.em (c ∈ named) with member | unnamed
  · have all : ∀ shape ∈ named.map cell, shape.length = 6 := by simp [cellsNamed]
    exact all _ (List.mem_map_of_mem member)
  · rw [cellUnnamed unnamed]
    rfl

theorem cellPlain (c : Char) : ∀ d ∈ cell c, isTerminator d = false := by
  rcases Decidable.em (c ∈ named) with member | unnamed
  · have all : ∀ shape ∈ named.map cell, ∀ d ∈ shape, isTerminator d = false := by
      simp [cellsNamed, isTerminator]
    exact all _ (List.mem_map_of_mem member)
  · have plain : isTerminator c = false := by
      simp only [named, List.mem_cons, not_or] at unnamed
      simp [isTerminator, unnamed.2.1, unnamed.2.2.1]
    have blank : isTerminator ' ' = false := rfl
    rw [cellUnnamed unnamed]
    simp [plain, blank]

theorem cellRead (c : Char) : ofCell? (cell c) = some c := by
  rcases Decidable.em (c ∈ named) with member | unnamed
  · have all : ∀ c ∈ named, ofCell? (cell c) = some c := by
      simp only [named, List.forall_mem_cons]
      exact ⟨rfl, rfl, rfl, rfl, List.forall_mem_nil _⟩
    exact all c member
  · change List.find? (fun d => cell d == cell c) (named ++ (cell c).take 1) = some c
    have own : cell c = [c, ' ', ' ', ' ', ' ', ' '] := cellUnnamed unnamed
    have second : ∀ shape ∈ named.map cell, shape[1]? ≠ some ' ' := by simp [cellsNamed]
    have none : List.find? (fun d => cell d == cell c) named = none := by
      rw [List.find?_eq_none]
      intro d member same
      refine second _ (List.mem_map_of_mem member) ?_
      rw [beq_iff_eq.mp same, own]
      rfl
    rw [List.find?_append, none, own]
    simp [own]

theorem flagTextRead (s : Step) :
    ofFlagText? s.flagText.toList = some (s.atLineStart, s.atLineEnd) := by
  have all (start stop : Bool) :
      ofFlagText? (flagText ⟨0, ' ', ' ', ' ', start, stop⟩).toList = some (start, stop) := by
    cases start <;> cases stop <;> rfl
  exact all s.atLineStart s.atLineEnd

theorem flagTextPlain (s : Step) : ∀ d ∈ s.flagText.toList, isTerminator d = false := by
  rcases s with ⟨index, previous, current, next, start, stop⟩
  cases start <;> cases stop <;> simp [flagText, isTerminator]

def columns (s : Step) : List Char :=
  [' ', ' '] ++ (cell s.previous ++ ([' ', ' '] ++ (cell s.current ++
    ([' ', ' '] ++ (cell s.next ++ ([' ', ' '] ++ s.flagText.toList))))))

theorem columnsRead (s : Step) : ofColumns? s.index s.columns = some s := by
  have past (c : Char) {count : Nat} (wide : 6 ≤ count) : (cell c).drop count = [] :=
    List.drop_of_length_le (by rwa [cellLength])
  simp [ofColumns?, columns, List.drop_append, cellLength, past, cellRead, flagTextRead]

theorem columnsPlain (s : Step) : ∀ d ∈ s.columns, isTerminator d = false := by
  have blanks : ∀ d ∈ [' ', ' '], isTerminator d = false := by simp [isTerminator]
  simp only [columns, List.forall_mem_append]
  exact ⟨blanks, cellPlain _, blanks, cellPlain _, blanks, cellPlain _, blanks, flagTextPlain s⟩

theorem rowChars (s : Step) :
    s.row.toList = List.replicate (6 - (Nat.toDigits 10 s.index).length) ' ' ++
      (Nat.toDigits 10 s.index ++ s.columns) := by
  simp [row, columns, cell, alignRight]

theorem digitOf {n : Nat} {d : Char} (member : d ∈ Nat.toDigits 10 n) : d.isDigit :=
  Nat.isDigit_of_mem_toDigits (by decide) (by decide) member

theorem digitNot {c d : Char} (digit : d.isDigit) (other : c.isDigit = false) : d ≠ c := by
  rintro rfl
  rw [digit] at other
  contradiction

theorem rowPlain (s : Step) : ∀ d ∈ s.row.toList, isTerminator d = false := by
  intro d member
  rw [rowChars, List.mem_append, List.mem_append] at member
  rcases member with blank | digit | column
  · cases List.eq_of_mem_replicate blank
    rfl
  · have carriage : d ≠ '\r' := digitNot (digitOf digit) rfl
    have lineFeed : d ≠ '\n' := digitNot (digitOf digit) rfl
    simp [isTerminator, carriage, lineFeed]
  · exact columnsPlain s d column

theorem rowRead (s : Step) : ofRow? s.row.toList = some s := by
  have blanks : ∀ d ∈ List.replicate (6 - (Nat.toDigits 10 s.index).length) ' ', (d == ' ') = true := by
    intro d member
    simp [List.eq_of_mem_replicate member]
  have number : s.row.toList.dropWhile (· == ' ') = Nat.toDigits 10 s.index ++ s.columns := by
    rw [rowChars, List.dropWhile_append_of_pos blanks]
    refine List.dropWhile_beq_eq_self_of_head?_ne ?_
    cases digits : Nat.toDigits 10 s.index with
    | nil => exact absurd digits Nat.toDigits_ne_nil
    | cons d rest =>
      have first : d.isDigit := digitOf (digits ▸ List.mem_cons_self)
      simpa using digitNot first rfl
  have digits : (Nat.toDigits 10 s.index ++ s.columns).takeWhile Char.isDigit =
      Nat.toDigits 10 s.index := by
    rw [List.takeWhile_append_of_pos fun d member => digitOf member]
    simp [columns]
  simp [ofRow?, number, digits, columnsRead]

theorem rowOneLine (s : Step) : '\n' ∉ s.row.toList ∧ '\r' ∉ s.row.toList := by
  refine ⟨fun member => ?_, fun member => ?_⟩
  · exact absurd (rowPlain s _ member) (by decide)
  · exact absurd (rowPlain s _ member) (by decide)

theorem readSource {row : List Char} {s : Step} (read : ofRow? row = some s) : row = s.row.toList := by
  simp only [ofRow?, bind, Option.bind_eq_some_iff] at read
  obtain ⟨step, _, kept⟩ := read
  split at kept
  · rename_i same
    cases Option.some.inj kept
    exact same.symm
  · cases kept

theorem rowReadBack (s : Step) :
    (∀ row, ofRow? row = some s ↔ row = s.row.toList) ∧
    '\r' ∉ s.row.toList ∧ '\n' ∉ s.row.toList ∧
    ∀ other : Step, other.row = s.row → other = s := by
  have readExact (row : List Char) : ofRow? row = some s ↔ row = s.row.toList := by
    constructor
    · exact readSource
    · intro same
      rw [same, rowRead]
  obtain ⟨noLineFeed, noCarriage⟩ := rowOneLine s
  refine ⟨readExact, noCarriage, noLineFeed, fun other same => ?_⟩
  have own := (readExact other.row.toList).mpr (congrArg String.toList same)
  rw [rowRead other] at own
  exact Option.some.inj own

example : ofRow? "18446744073709551615          \\       <none>  start".toList =
    some ⟨18446744073709551615, ' ', '\\', sentinel, true, false⟩ := by decide

theorem ofTextPlaced (text : String) :
    ofText text = (List.range (Logical.ofText text.toList).length).map
      fun place => ofCursor (Cursor.placed text.toList place) := by
  rw [ofText, Cursor.ofTextPlaced, Cursor.foldPlaced, List.foldl_map, List.foldl_push_eq_append,
    List.range_eq_range']
  simp

def logical (s : Step) : Logical := ⟨s.current, s.index⟩

theorem logicalSteps (text : String) : (ofText text).map logical = Logical.ofText text.toList := by
  rw [ofTextPlaced]
  refine List.ext_getElem (by simp) ?_
  intro place _ inside
  simp [logical, ofCursor, Cursor.placedInside inside]

theorem charsOfNumbered {index : Nat} {text : List Char} {steps : List Step}
    (numbered : steps.map logical = Logical.number index text) : chars index steps = text := by
  fun_induction Logical.number index text generalizing steps with
  | case1 index =>
    cases List.map_eq_nil_iff.mp numbered
    rfl
  | case2 index c =>
    obtain ⟨s, rest, rfl, here, behind⟩ := List.map_eq_cons_iff.mp numbered
    obtain ⟨char, last⟩ := Logical.mk.inj here
    cases List.map_eq_nil_iff.mp behind
    rw [chars, if_pos last, char]
    rfl
  | case3 index c d rest pair ih =>
    obtain ⟨s, steps, rfl, here, behind⟩ := List.map_eq_cons_iff.mp numbered
    obtain ⟨char, last⟩ := Logical.mk.inj here
    have jumped : ¬s.index = index := by omega
    have following : chars (s.index + 1) steps = rest := by
      rw [last]
      exact ih behind
    rw [chars, if_neg jumped, following, char, ← pair.2]
    rfl
  | case4 index c d rest single ih =>
    obtain ⟨s, steps, rfl, here, behind⟩ := List.map_eq_cons_iff.mp numbered
    obtain ⟨char, last⟩ := Logical.mk.inj here
    have following : chars (s.index + 1) steps = d :: rest := by
      rw [last]
      exact ih behind
    rw [chars, if_pos last, following, char]
    rfl

theorem charsOfText (text : String) : chars 0 (ofText text) = text.toList :=
  charsOfNumbered (logicalSteps text)

theorem linesTable (steps : List Step) :
    Text.lines (table steps).toList = (steps.map fun s => s.row.toList) ++ [[]] := by
  induction steps with
  | nil => rfl
  | cons s steps ih =>
    have first : (table (s :: steps)).toList = s.row.toList ++ '\n' :: (table steps).toList := by
      simp [table]
    rw [first, Text.lines, List.splitOn_append_cons_self_of_not_mem (rowOneLine s).1, ← Text.lines, ih]
    rfl

theorem rowsRead (steps : List Step) :
    (steps.map fun s => s.row.toList).mapM ofRow? = some steps := by
  induction steps with
  | nil => rfl
  | cons s steps ih =>
    rw [List.map_cons, List.mapM_cons, rowRead, ih]
    rfl

theorem textOfTable (text : String) : textOfTable? (table (ofText text)) = some text := by
  have rows : (Text.lines (table (ofText text)).toList).dropLast =
      (ofText text).map fun s => s.row.toList := by
    rw [linesTable, List.dropLast_concat]
  simp only [textOfTable?, rows, rowsRead, bind, Option.bind, charsOfText, String.ofList_toList]
  rfl

theorem tableLosesNothing (text : String) :
    textOfTable? (table (ofText text)) = some text ∧
    (∀ s ∈ ofText text, '\n' ∉ s.row.toList ∧ '\r' ∉ s.row.toList) ∧
    ∀ other : String, table (ofText other) = table (ofText text) → other = text := by
  refine ⟨textOfTable text, fun s _ => rowOneLine s, ?_⟩
  intro other same
  have read := textOfTable other
  rw [same, textOfTable text] at read
  exact (Option.some.inj read).symm

end TextCursor.Step
