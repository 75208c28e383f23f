import Mathlib.Logic.Relation
import TextCursor.Proofs.Reading
import TextCursor.Proofs.Scanning
import TextCursor.Proofs.Storing
import TextCursor.Settings

/-! The layout of a settings file does not matter. What a file says is what its lines say, one by
one, and the path that a line leaves pending is taken from the next line that says anything; so a
change that keeps what a line says, or brings in a line that says nothing, is not seen. -/
namespace TextCursor.Settings
open Text (isSpace lines trim trimEnd)

def told (line : List Char) : List String :=
  if isTelling (trim line) then lineTokens (trim line) else []

theorem tokensTold (text : List Char) : tokens text = (lines text).flatMap told := by
  rw [tokens]
  induction lines text with
  | nil => rfl
  | cons line rest ih =>
    rw [List.map_cons, List.filter_cons, List.flatMap_cons, ← ih, told]
    split
    · rfl
    · rfl

theorem toldSame {line other : List Char} (same : trim line = trim other) : told line = told other := by
  rw [told, same, told]

theorem silentTold {line : List Char} (silent : Silent line) : told line = [] := by
  cases silent with
  | blank space =>
    have empty : trim line = trim [] := by simpa using Text.trimFront space []
    rw [told, empty]
    rfl
  | @comment front space rest =>
    have hash : trim (front ++ '#' :: rest) = '#' :: trimEnd rest := by
      rw [Text.trimFront space]
      exact Text.trimEndPast [] rfl rest
    rw [told, hash]
    rfl

theorem pathBehindSpace {rest : List Char} (space : ∀ c, rest.head? = some c → isSpace c) :
    pathOnLine? rest = some (trim rest) := by
  cases rest with
  | nil => rfl
  | cons c rest =>
    have own := space c rfl
    have other : c ≠ '=' := by
      rintro rfl
      contradiction
    have dropped : trim (c :: rest) = trim rest :=
      congrArg trimEnd (List.dropWhile_cons_of_pos own)
    rw [pathOnLine?, if_neg other, if_pos own, dropped]

theorem toldPath {line rest path : List Char} (own : trim line = "--debug-log".toList ++ rest)
    (value : pathOnLine? rest = some path) :
    told line = "--debug-log" :: if path = [] then [] else [String.ofList path] := by
  have telling : isTelling ("--debug-log".toList ++ rest) := rfl
  rw [told, own, if_pos telling, lineTokens, List.isPrefixOf?_eq_some_iff_append_eq.mpr rfl, Option.bind_some, value]
  cases path with
  | nil => rfl
  | cons c path => rfl

theorem setOffTold {line path gap : List Char} (own : trim line = "--debug-log=".toList ++ path)
    (wide : gap ≠ []) (space : ∀ c ∈ gap, isSpace c) :
    told ("--debug-log".toList ++ gap ++ path) = told line := by
  obtain ⟨c, gap, rfl⟩ := List.exists_cons_of_ne_nil wide
  have front : isSpace c := space c List.mem_cons_self
  have trimmed : trim ("--debug-log".toList ++ (c :: gap) ++ path) =
      "--debug-log".toList ++ trimEnd (c :: gap ++ path) := by
    rw [List.append_assoc]
    exact Text.trimEndPast "--debug-lo".toList rfl (c :: gap ++ path)
  have starts : ∀ d, (trimEnd (c :: gap ++ path)).head? = some d → isSpace d := by
    intro d head
    rw [List.cons_append, Text.trimEndSpace front] at head
    split at head
    · contradiction
    · cases head
      exact front
  have value : pathOnLine? (trimEnd (c :: gap ++ path)) = some (trim path) := by
    rw [pathBehindSpace starts, Text.trimTrimEnd, Text.trimFront space]
  have sign : pathOnLine? ('=' :: path) = some (trim path) := by rw [pathOnLine?, if_pos rfl]
  rw [toldPath trimmed value, toldPath own sign]

theorem relinedTold {was now : List (List Char)} (change : Relined was now) :
    now.flatMap told = was.flatMap told := by
  cases change with
  | inserted silent => simp [silentTold silent]
  | padded line before behind =>
    rw [List.flatMap_singleton, List.flatMap_singleton, toldSame (Text.trimPadded line before behind)]
  | setOff own wide space =>
    rw [List.flatMap_singleton, List.flatMap_singleton, setOffTold own wide space]

theorem returnsTrimmed (text : List Char) :
    (lines (withReturns text)).map trimEnd = (lines text).map trimEnd := by
  induction text with
  | nil => rfl
  | cons c text ih =>
    by_cases feed : c = '\n'
    · subst feed
      have cut : lines (withReturns ('\n' :: text)) = ['\r'] :: lines (withReturns text) := rfl
      have own : lines ('\n' :: text) = [] :: lines text := rfl
      have blank : trimEnd ['\r'] = trimEnd [] := by decide
      rw [cut, own, List.map_cons, List.map_cons, blank, ih]
    · have kept : withReturns (c :: text) = c :: withReturns text := by simp [withReturns, feed]
      have uncut (rest : List Char) : lines (c :: rest) = (lines rest).modifyHead (c :: ·) := by
        simp [lines, List.splitOn_cons_eq_if_modifyHead, feed]
      obtain ⟨line, rest, cut⟩ :=
        List.exists_cons_of_ne_nil (List.splitOn_ne_nil '\n' (withReturns text))
      obtain ⟨own, behind, cutOwn⟩ := List.exists_cons_of_ne_nil (List.splitOn_ne_nil '\n' text)
      rw [lines, lines, cut, cutOwn, List.map_cons, List.map_cons] at ih
      obtain ⟨first, further⟩ := List.cons.inj ih
      rw [kept, uncut, uncut, lines, lines, cut, cutOwn, List.modifyHead_cons, List.modifyHead_cons,
        List.map_cons, List.map_cons, Text.trimEndCons c first, further]

theorem toldTrimmed (pieces : List (List Char)) :
    pieces.flatMap told = (pieces.map trimEnd).flatMap told := by
  rw [List.flatMap_map]
  exact congrArg pieces.flatMap (funext fun line => (toldSame (Text.trimTrimEnd line)).symm)

theorem editTokens {old new : List Char} (edit : Edit old new) : tokens new = tokens old := by
  rw [tokensTold, tokensTold]
  cases edit with
  | within change before after =>
    rw [before, after, List.flatMap_append, List.flatMap_append, List.flatMap_append,
      List.flatMap_append, relinedTold change]
  | returns all => rw [all, toldTrimmed, returnsTrimmed, ← toldTrimmed]

theorem editsTokens {old new : List Char} (edits : Relation.EqvGen Edit old new) :
    tokens new = tokens old := by
  induction edits with
  | rel old new edit => exact editTokens edit
  | refl => rfl
  | symm old new _ ih => exact ih.symm
  | trans old between new _ _ first second => exact second.trans first

theorem layoutDoesNotMatter {s t : Session} {path before after : String}
    (held : s.disk.Holds path before.toUTF8) (laidAnew : t.disk.Holds path after.toUTF8)
    (edits : Relation.EqvGen Edit before.toList after.toList) :
    (t.does (load path)).1 = (s.does (load path)).1 ∧
    ((∃ f, (s.does (load path)).1 = .ok f) ∨
      (s.does (load path)).1 = .error (.invalid path .missingValue)) := by
  have same : parse after = parse before := by rw [parse, parse, editsTokens edits]
  rw [loadHeld held, loadHeld laidAnew, same]
  refine ⟨rfl, ?_⟩
  cases parse before with
  | ok f => exact .inl ⟨f, rfl⟩
  | error cause =>
    cases cause
    exact .inr rfl

/- The path begins with an equals sign, and the switch behind it is indented. -/
theorem layoutDoesNotMatterAroundPath :
    let before := "--debug-log==a b\n--perf"
    let after := "\t# paths\r\n--debug-log \t=a b\r\n  --perf"
    let held (text : String) : Session :=
      { disk := Disk.bare.set ["config", "work"] (.file 0 text.toUTF8) }
    (held before).disk.Holds "config" before.toUTF8 ∧
    (held after).disk.Holds "config" after.toUTF8 ∧
    Relation.EqvGen Edit before.toList after.toList ∧
    ((held after).does (load "config")).1 = ((held before).does (load "config")).1 ∧
    ((held before).does (load "config")).1 = .ok { perf := true, debugLog := some "=a b" } := by
  intro before after held
  let apart := "--debug-log \t=a b\n--perf"
  let indented := "--debug-log \t=a b\n  --perf"
  let noted := "\t# paths\n--debug-log \t=a b\n  --perf"
  have first : (held before).disk.Holds "config" before.toUTF8 := ⟨_, _, rfl⟩
  have second : (held after).disk.Holds "config" after.toUTF8 := ⟨_, _, rfl⟩
  have one : Edit before.toList apart.toList := by
    have own : trim "--debug-log==a b".toList = "--debug-log=".toList ++ "=a b".toList := by decide
    have gap : ∀ c ∈ [' ', '\t'], isSpace c := List.all_eq_true.mp rfl
    have setOff := Relined.setOff own (by decide) gap
    exact .within setOff (by decide : lines before.toList = [] ++ _ ++ ["--perf".toList])
      (by decide : lines apart.toList = [] ++ _ ++ ["--perf".toList])
  have two : Edit apart.toList indented.toList := by
    have front : ∀ c ∈ [' ', ' '], isSpace c := List.all_eq_true.mp rfl
    have back : ∀ c ∈ [], isSpace c := List.all_eq_true.mp rfl
    have padded := Relined.padded "--perf".toList front back
    exact .within padded (by decide : lines apart.toList = ["--debug-log \t=a b".toList] ++ _ ++ [])
      (by decide : lines indented.toList = ["--debug-log \t=a b".toList] ++ _ ++ [])
  have three : Edit indented.toList noted.toList := by
    have front : ∀ c ∈ ['\t'], isSpace c := List.all_eq_true.mp rfl
    have note := Relined.inserted (.comment front " paths".toList)
    exact .within note (by decide : lines indented.toList = [] ++ _ ++ lines indented.toList)
      (by decide : lines noted.toList = [] ++ _ ++ lines indented.toList)
  have four : Edit noted.toList after.toList := .returns (by decide)
  have edits : Relation.EqvGen Edit before.toList after.toList :=
    .trans _ _ _ (.rel _ _ one) (.trans _ _ _ (.rel _ _ two)
      (.trans _ _ _ (.rel _ _ three) (.rel _ _ four)))
  have said : tokens before.toList = ["--debug-log", "=a b", "--perf"] := by decide
  refine ⟨first, second, edits, (layoutDoesNotMatter first second edits).1, ?_⟩
  rw [loadHeld first, parse, said]
  rfl

end TextCursor.Settings
