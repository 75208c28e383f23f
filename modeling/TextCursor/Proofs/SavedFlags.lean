import TextCursor.Proofs.SettingsText
import TextCursor.Proofs.Storing

/-! Which flags come back as they were saved, and what else a saved path can lead to. The path is
written as it is, so a path that is blank takes the next token for itself, or leaves none, and one
that goes over several lines brings its further lines in as settings. -/
namespace TextCursor.Settings
open Text (isSpace trim)

structure Storable (path : String) : Prop where
  some : path ≠ ""
  oneLine : '\n' ∉ path.toList
  trimmed : Text.Trimmed path.toList

theorem storableOfTrim {path : String} (oneLine : '\n' ∉ path.toList)
    (some : trim path.toList ≠ []) (same : String.ofList (trim path.toList) = path) :
    Storable path where
  some := by
    rintro rfl
    exact some rfl
  oneLine := oneLine
  trimmed := by
    rw [← same, String.toList_ofList]
    exact Text.trimTrimmed _

theorem recoveredStorable {path : String} (storable : Storable path) :
    recovered? path.toList = some (path, []) := by
  have kept := Text.trimOfTrimmed storable.trimmed
  have some : path.toList ≠ [] := by simpa using storable.some
  rw [recoveredOneLine storable.oneLine, kept, if_neg some, String.ofList_toList]

theorem parseRender (f : Flags) :
    parse (render f) = .ok f ↔ ∀ path, f.debugLog = some path → Storable path := by
  constructor
  · intro complete path set
    have oneLine := parsedNoLineFeed complete set
    rw [parsePath set, recoveredOneLine oneLine] at complete
    split at complete
    · contradiction
    · rename_i own behind found
      split at found
      · contradiction
      rename_i some
      cases found
      refine storableOfTrim oneLine some ?_
      have same := congrArg Flags.debugLog (Except.ok.inj complete)
      rw [set] at same
      exact Option.some.inj same
  · intro storable
    cases set : f.debugLog with
    | none => exact parseBare set
    | some path =>
      have whole : Flags.scan [] = .ok {} := rfl
      rw [parsePath set, recoveredStorable (storable path set)]
      simp only [whole, Except.map, Flags.unionDefault, ← set]

theorem parseRenderSwitches (f : Flags) :
    (parse (render f)).map Flags.switches = .ok f.switches ↔
      ∀ path, f.debugLog = some path → ∃ own behind, recovered? path.toList = some (own, behind) ∧
        (Flags.scan behind).map (fun g => (f.union g).switches) = .ok f.switches := by
  cases set : f.debugLog with
  | none => simp [parseBare set, Except.map]
  | some path =>
    rw [parsePath set]
    cases recovered : recovered? path.toList with
    | none => simp [recovered, Except.map]
    | some found =>
      rcases found with ⟨own, behind⟩
      have laid : ((Flags.scan behind).map (Flags.union { f with debugLog := some own })).map
            Flags.switches = (Flags.scan behind).map fun g => (f.union g).switches := by
        cases Flags.scan behind <;> rfl
      simp only [laid]
      constructor
      · intro same other own'
        cases own'
        exact ⟨own, behind, recovered, same⟩
      · intro all
        obtain ⟨_, _, found, same⟩ := all path rfl
        cases recovered.symm.trans found
        exact same

section
variable {s after : Session} {path : String} {f : Flags}

theorem savedComesBack (saved : s.does (save path f) = (.ok (), after))
    (file : ∃ content, after.disk.Holds path content) :
    (after.does (load path)).1 = .ok f ↔ ∀ log, f.debugLog = some log → Storable log := by
  obtain ⟨content, held⟩ := file
  rw [loadSaved saved held, Failure.renamedOk, parseRender]

theorem savedComesBackWhole :
    let f : Flags := { noHeader := true, debugLog := some "a =#\r\x00 --perf" }
    let after := (Session.bare.does (save "config" f)).2
    Session.bare.does (save "config" f) = (.ok (), after) ∧
    (∃ content, after.disk.Holds "config" content) ∧
    (after.does (load "config")).1 = .ok f := by
  intro f after
  have saved : Session.bare.does (save "config" f) = (.ok (), after) := rfl
  have file : ∃ content, after.disk.Holds "config" content := ⟨_, _, _, rfl⟩
  refine ⟨saved, file, (savedComesBack saved file).mpr ?_⟩
  rintro _ ⟨⟩
  refine ⟨by decide, by simp, ?first, ?last⟩
  case first =>
    rintro _ ⟨⟩
    rfl
  case last =>
    rintro _ ⟨⟩
    rfl

theorem savedSwitchesComeBack (saved : s.does (save path f) = (.ok (), after))
    (file : ∃ content, after.disk.Holds path content) :
    (after.does (load path)).1.map Flags.switches = .ok f.switches ↔
      ∀ log, f.debugLog = some log → ∃ own behind, recovered? log.toList = some (own, behind) ∧
        (Flags.scan behind).map (fun g => (f.union g).switches) = .ok f.switches := by
  obtain ⟨content, held⟩ := file
  rw [loadSaved saved held, ← parseRenderSwitches]
  cases parse (render f) <;> simp [Failure.errorRenamed, Failure.okRenamed, Except.map]

/- The blank first line takes `--perf` for the path, and nothing is switched on. -/
theorem savedSwitchesComeBackOverLines :
    let f : Flags := { summary := true, debugLog := some " \n--perf\n--summary" }
    let after := (Session.bare.does (save "config" f)).2
    Session.bare.does (save "config" f) = (.ok (), after) ∧
    (∃ content, after.disk.Holds "config" content) ∧
    (after.does (load "config")).1.map Flags.switches = .ok f.switches := by
  intro f after
  have saved : Session.bare.does (save "config" f) = (.ok (), after) := rfl
  have file : ∃ content, after.disk.Holds "config" content := ⟨_, _, _, rfl⟩
  refine ⟨saved, file, (savedSwitchesComeBack saved file).mpr ?_⟩
  rintro _ ⟨⟩
  exact ⟨"--perf", ["--summary"], rfl, rfl⟩

/- A blank path is missing when it is read back, and the second line of a path is a switch. -/
theorem savedPathGoesWrong :
    let after (log : String) : Session :=
      (Session.bare.does (save "config" { debugLog := some log })).2
    (∀ log ∈ [" ", "a\n--perf"],
      Session.bare.does (save "config" { debugLog := some log }) = (.ok (), after log) ∧
      ∃ content, (after log).disk.Holds "config" content) ∧
    ((after " ").does (load "config")).1 = .error (.invalid "config" .missingValue) ∧
    ((after "a\n--perf").does (load "config")).1 = .ok { perf := true, debugLog := some "a" } := by
  intro after
  have saved : ∀ log ∈ [" ", "a\n--perf"],
      Session.bare.does (save "config" { debugLog := some log }) = (.ok (), after log) ∧
      ∃ content, (after log).disk.Holds "config" content := by
    intro log member
    simp only [List.mem_cons, List.not_mem_nil, or_false] at member
    rcases member with rfl | rfl
    · exact ⟨rfl, _, _, _, rfl⟩
    · exact ⟨rfl, _, _, _, rfl⟩
  have read : ∀ log ∈ [" ", "a\n--perf"], ((after log).does (load "config")).1 =
      (parse (render { debugLog := some log })).mapError (.invalid "config") := by
    intro log member
    obtain ⟨fine, _, file⟩ := saved log member
    rw [loadSaved fine file]
  have nothing : recovered? " ".toList = none := by decide
  have switch : recovered? "a\n--perf".toList = some ("a", ["--perf"]) := by decide
  refine ⟨saved, ?_, ?_⟩
  · rw [read " " (by simp), parsePath rfl, nothing]
    rfl
  · rw [read "a\n--perf" (by simp), parsePath rfl, switch]
    rfl

end

end TextCursor.Settings
