import Mathlib.Data.List.DropRight
import TextCursor.Text

/-! How a text is read. What has come out well, or failed, was so at every step before. Trimming loses
nothing but white space at either end, and the order in which the ends are trimmed does not matter. -/
namespace TextCursor.Failure

variable {ε ε' α β : Type}

theorem boundOk {first : Except ε α} {next : α → Except ε β} {b : β} :
    first >>= next = .ok b ↔ ∃ a, first = .ok a ∧ next a = .ok b := by
  cases first with
  | error e => simp [bind, Except.bind]
  | ok a => simp [bind, Except.bind]

theorem mappedOk {first : Except ε α} {f : α → β} {b : β} :
    first.map f = .ok b ↔ ∃ a, first = .ok a ∧ f a = b := by
  cases first with
  | error e => simp [Except.map]
  | ok a => simp [Except.map]

theorem mappedError {first : Except ε α} {f : α → β} {e : ε} :
    first.map f = .error e ↔ first = .error e := by
  cases first with
  | error e => simp [Except.map]
  | ok a => simp [Except.map]

theorem errorRenamed (f : ε → ε') (e : ε) :
    (Except.error e : Except ε α).mapError f = .error (f e) := rfl

theorem okRenamed (f : ε → ε') (a : α) : (Except.ok a : Except ε α).mapError f = .ok a := rfl

theorem renamedOk {first : Except ε α} {f : ε → ε'} {a : α} :
    first.mapError f = .ok a ↔ first = .ok a := by
  cases first with
  | error e => simp [errorRenamed]
  | ok b => simp [okRenamed]

theorem renamedError {first : Except ε α} {f : ε → ε'} {e : ε'} :
    first.mapError f = .error e ↔ ∃ cause, first = .error cause ∧ f cause = e := by
  cases first with
  | error cause => simp [errorRenamed]
  | ok a => simp [okRenamed]

theorem refusedOk {refused : Prop} [Decidable refused] {e : ε} {further : Except ε α} {a : α} :
    (if refused then .error e else further) = .ok a ↔ ¬refused ∧ further = .ok a := by
  split <;> simp [*]

end TextCursor.Failure

namespace TextCursor.Text

structure Trimmed (text : List Char) : Prop where
  first : ∀ c, text.head? = some c → isSpace c = false
  last : ∀ c, text.getLast? = some c → isSpace c = false

theorem headNotDropped {drop : Char → Bool} {text : List Char} {c : Char}
    (head : (text.dropWhile drop).head? = some c) : drop c = false := by
  have stopped := List.head?_dropWhile_not drop text
  rw [head] at stopped
  exact stopped

theorem dropWhileNothing {drop : Char → Bool} {text : List Char}
    (stop : ∀ c, text.head? = some c → drop c = false) : text.dropWhile drop = text := by
  refine List.dropWhile_eq_self_iff.mpr fun inner => ?_
  simp [stop text[0] (List.head?_eq_getElem?.trans (List.getElem?_eq_getElem inner))]

theorem trimEndPast (front : List Char) {c : Char} (stop : isSpace c = false) (text : List Char) :
    trimEnd (front ++ c :: text) = front ++ c :: trimEnd text := by
  have kept : (c :: front.reverse).dropWhile isSpace = c :: front.reverse :=
    dropWhileNothing (by simpa using stop)
  simp only [trimEnd, List.reverse_append, List.reverse_cons, List.append_assoc,
    List.singleton_append, List.dropWhile_append, kept]
  split
  · rename_i blank
    simp [List.isEmpty_iff.mp blank]
  · simp

theorem trimEndSpace {c : Char} (space : isSpace c) (text : List Char) :
    trimEnd (c :: text) = if trimEnd text = [] then [] else c :: trimEnd text := by
  simp only [trimEnd, List.reverse_cons, List.dropWhile_append, List.isEmpty_iff,
    List.reverse_eq_nil_iff]
  split
  · exact List.reverse_eq_nil_iff.mpr (List.dropWhile_cons_of_pos space)
  · simp

theorem trimEndIdle (text : List Char) : trimEnd (trimEnd text) = trimEnd text :=
  List.rdropWhile_idempotent isSpace text

theorem trimStartEnd (text : List Char) : trimStart (trimEnd text) = trimEnd (trimStart text) := by
  induction text with
  | nil => rfl
  | cons c text ih =>
    cases space : isSpace c with
    | false =>
      have kept (rest : List Char) : trimStart (c :: rest) = c :: rest :=
        dropWhileNothing (by simpa using space)
      have past : trimEnd (c :: text) = c :: trimEnd text := trimEndPast [] space text
      rw [past, kept, kept, past]
    | true =>
      have dropped (rest : List Char) : trimStart (c :: rest) = trimStart rest :=
        List.dropWhile_cons_of_pos space
      rw [trimEndSpace space, dropped, ← ih]
      split
      · rename_i blank
        rw [blank]
      · exact dropped _

theorem trimTrimEnd (text : List Char) : trim (trimEnd text) = trim text := by
  rw [trim, trimStartEnd, trimEndIdle, trim]

theorem trimPadded {front back : List Char} (text : List Char) (before : ∀ c ∈ front, isSpace c)
    (behind : ∀ c ∈ back, isSpace c) : trim (front ++ text ++ back) = trim text := by
  have start (rest : List Char) : trimStart (front ++ rest) = trimStart rest :=
    List.dropWhile_append_of_pos before
  have back : trimEnd (text ++ back) = trimEnd text := by
    rw [trimEnd, List.reverse_append, List.dropWhile_append_of_pos (by simpa using behind), trimEnd]
  rw [trim, List.append_assoc, start, ← trimStartEnd, back, trimStartEnd, trim]

theorem trimFront {front : List Char} (before : ∀ c ∈ front, isSpace c) (text : List Char) :
    trim (front ++ text) = trim text := by
  have padded := trimPadded text before (by simp : ∀ c ∈ ([] : List Char), isSpace c)
  rwa [List.append_nil] at padded

theorem trimEndCons (c : Char) {text other : List Char} (same : trimEnd text = trimEnd other) :
    trimEnd (c :: text) = trimEnd (c :: other) := by
  cases space : isSpace c with
  | true => rw [trimEndSpace space, trimEndSpace space, same]
  | false =>
    have past (rest : List Char) : trimEnd (c :: rest) = c :: trimEnd rest := trimEndPast [] space rest
    rw [past, past, same]

theorem trimTrimmed (text : List Char) : Trimmed (trim text) where
  first c head := by
    rw [trim, ← trimStartEnd] at head
    exact headNotDropped head
  last c last := by
    rw [trim, trimEnd, List.getLast?_reverse] at last
    exact headNotDropped last

theorem trimOfTrimmed {text : List Char} (trimmed : Trimmed text) : trim text = text := by
  have start : trimStart text = text := dropWhileNothing trimmed.first
  have back : text.reverse.dropWhile isSpace = text.reverse :=
    dropWhileNothing (by simpa using trimmed.last)
  rw [trim, start, trimEnd, back, List.reverse_reverse]

theorem trimSublist (text : List Char) : (trim text).Sublist text := by
  have start : (trimStart text).Sublist text := List.dropWhile_sublist _
  have back : (trimEnd (trimStart text)).Sublist (trimStart text) :=
    (List.rdropWhile_prefix isSpace _).sublist
  exact back.trans start

theorem splitMember {cut : Char → Bool} {text piece : List Char} (member : piece ∈ text.splitOnP cut)
    {c : Char} (inside : c ∈ piece) : c ∈ text ∧ cut c = false := by
  induction text generalizing piece with
  | nil =>
    rw [List.mem_singleton.mp member] at inside
    contradiction
  | cons d text ih =>
    rw [List.splitOnP_cons_eq_if_modifyHead] at member
    split at member
    · rcases List.mem_cons.mp member with rfl | behind
      · contradiction
      · exact ⟨List.mem_cons_of_mem d (ih behind inside).1, (ih behind inside).2⟩
    · rename_i uncut
      obtain ⟨first, pieces, cuts⟩ := List.exists_cons_of_ne_nil (List.splitOnP_ne_nil cut text)
      rw [cuts] at ih
      rw [cuts, List.modifyHead_cons] at member
      rcases List.mem_cons.mp member with rfl | behind
      · rcases List.mem_cons.mp inside with rfl | further
        · exact ⟨List.mem_cons_self, by simpa using uncut⟩
        · have found := ih List.mem_cons_self further
          exact ⟨List.mem_cons_of_mem d found.1, found.2⟩
      · have found := ih (List.mem_cons_of_mem first behind) inside
        exact ⟨List.mem_cons_of_mem d found.1, found.2⟩

end TextCursor.Text
