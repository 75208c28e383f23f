import TextCursor.Proofs.RunEffects

/-! What a run may touch. A run that is ended by its arguments touches nothing; every other one,
wherever it ends, alters no more than the settings it was told to change, directories for them, and
the step log, once it is known. -/
namespace TextCursor.Run
open Disk (Alters DirectoryMade FileChanged Keeps)
open Settings (globalPath)

variable {s : Session} {e : Environment} {arguments : List String} {i : Invocation}

def endedByArguments : Ending → Bool
  | .usage _ => true
  | .told _ => true
  | .failed (.badArguments _) => true
  | _ => false

inductive Touches (s : Session) (e : Environment) (arguments : List String) (i : Invocation)
    (after : Disk) (place : Location) : Prop where
  | settings (told : i.save ∨ i.clear) (changed : FileChanged s.disk after (globalPath e) place)
  | directory {front : String} (told : i.save) (along : Path.Begins front.toList (globalPath e).toList)
      (inner : front.length < (globalPath e).length) (made : DirectoryMade s.disk after front place)
  | log {f : Flags} {path : String} (resolved : (s.does (resolve e arguments i)).1 = .ok f)
      (own : logPath? e f = some path) (changed : FileChanged s.disk after path place)

theorem verdictReached (d : Disk) (f : Flags) (file : String) :
    endedByArguments (verdict d f file) = false := by
  rw [verdict]
  split
  · cases d.readText file <;> rfl
  · rfl

theorem argumentsRefused {error : Flags.ScanError}
    (refused : (s.does (resolve e arguments i)).1 = .error (.badArguments error)) :
    (s.does (resolve e arguments i)).2 = s := by
  cases scanned : Flags.scan arguments with
  | error error =>
    rw [resolve, scanned]
    rfl
  | ok given =>
    generalize updated : s.does (updateSettings (globalPath e) i given) = outcome
    obtain ⟨result, middle⟩ := outcome
    cases result with
    | error error =>
      rw [resolveStops scanned updated] at refused
      cases refused
    | ok =>
      cases clears : i.clear with
      | true =>
        rw [resolveCleared scanned clears updated] at refused
        cases refused
      | false =>
        rw [resolveLooks scanned clears updated] at refused
        obtain ⟨cause, _, other⟩ := Failure.renamedError.mp (Failure.mappedError.mp refused)
        cases other

theorem endedEarly (ended : endedByArguments (s.does (run e arguments)).1.ending) :
    (s.does (run e arguments)).2 = s := by
  cases read : Request.read arguments with
  | error error =>
    rw [run, read]
    rfl
  | ok request =>
    cases request with
    | help =>
      rw [run, read]
      rfl
    | version =>
      rw [run, read]
      rfl
    | walk i =>
      rw [runPerforms read] at ended ⊢
      generalize resolved : s.does (resolve e arguments i) = outcome
      obtain ⟨result, middle⟩ := outcome
      cases result with
      | error error =>
        rw [performFails resolved] at ended ⊢
        cases error with
        | badArguments error =>
          have same := argumentsRefused (congrArg Prod.fst resolved)
          rwa [resolved] at same
        | _ => contradiction
      | ok f =>
        obtain ⟨opened, _, ending, _⟩ := performedAs resolved
        rw [ending, verdictReached] at ended
        contradiction

def log? (s : Session) (e : Environment) (arguments : List String) (i : Invocation) : Option String :=
  match (s.does (resolve e arguments i)).1 with
  | .ok f => logPath? e f
  | .error _ => none

theorem performAlters (s : Session) (e : Environment) (arguments : List String) (i : Invocation) :
    Alters s.disk (s.does (perform e arguments i)).2.disk
      ((if i.save || i.clear then [globalPath e] else []) ++ (log? s e arguments i).toList)
      (if i.save then Settings.directories (globalPath e) else []) := by
  have settings := resolveAlters s e arguments i
  rw [log?]
  generalize resolved : s.does (resolve e arguments i) = outcome at settings ⊢
  obtain ⟨result, middle⟩ := outcome
  cases result with
  | error error =>
    rw [performFails resolved]
    exact settings.widen (List.subset_append_left ..) (List.Subset.refl _)
  | ok f =>
    obtain ⟨opened, before, _, behind⟩ := performedAs resolved
    have logged : Alters middle.disk _ _ [] := (before.trans behind).alters
    have whole := settings.trans logged (.inr rfl)
    rwa [List.append_nil] at whole

theorem walkReached (reached : ¬endedByArguments (s.does (run e arguments)).1.ending) :
    ∃ i, Request.read arguments = .ok (.walk i) := by
  rw [run] at reached
  cases read : Request.read arguments with
  | error error =>
    rw [read] at reached
    exact absurd rfl reached
  | ok request =>
    rw [read] at reached
    cases request with
    | help => exact absurd rfl reached
    | version => exact absurd rfl reached
    | walk i => exact ⟨i, rfl⟩

theorem performTouches (s : Session) (e : Environment) (arguments : List String) (i : Invocation)
    (place : Location) :
    (s.does (perform e arguments i)).2.disk.get? place = s.disk.get? place ∨
      Touches s e arguments i (s.does (perform e arguments i)).2.disk place := by
  rcases (performAlters s e arguments i).places place with same | ⟨path, member, changed⟩ |
    ⟨front, member, made⟩
  · exact .inl same
  · rcases List.mem_append.mp member with global | log
    · split at global
      · rename_i told
        cases List.mem_singleton.mp global
        exact .inr (.settings (by simpa using told) changed)
      · contradiction
    · rw [log?] at log
      split at log
      · rename_i f resolved
        exact .inr (.log resolved (Option.mem_toList.mp log) changed)
      · contradiction
  · split at member
    · rename_i told
      obtain ⟨along, inner⟩ := Settings.directoriesBegin member
      exact .inr (.directory told along inner made)
    · contradiction

theorem touchesOnlyItsOwn (s : Session) (e : Environment) (arguments : List String) :
    let ending := (s.does (run e arguments)).1.ending
    let after := (s.does (run e arguments)).2.disk
    (endedByArguments ending → after = s.disk) ∧
    (¬endedByArguments ending → ∃ i, Request.read arguments = .ok (.walk i) ∧
      Keeps s.disk after ∧
      (∀ place, after.get? place = s.disk.get? place ∨ Touches s e arguments i after place) ∧
      (i.save = false → i.clear = false →
        (∀ f, (s.does (resolve e arguments i)).1 = .ok f → logPath? e f = none) →
        ∀ place, after.get? place = s.disk.get? place)) := by
  intro ending after
  refine ⟨fun ended => congrArg Session.disk (endedEarly ended), fun reached => ?_⟩
  obtain ⟨i, read⟩ := walkReached reached
  have same : after = (s.does (perform e arguments i)).2.disk := by rw [← runPerforms read]
  rw [same]
  refine ⟨i, read, (performAlters s e arguments i).toKeeps, performTouches s e arguments i, ?_⟩
  intro saves clears silent place
  rcases performTouches s e arguments i place with same | touched
  · exact same
  · cases touched with
    | settings told => simp [saves, clears] at told
    | directory told => simp [saves] at told
    | log resolved own => simp [silent _ resolved] at own

/- The directory is made, though the file of the run is missing. -/
theorem touchesOnlyItsOwnPastMissingFile :
    let s : Session := Session.bare
    let e : Environment := { configHome := some "xdg" }
    let arguments := ["--clear", "--save", "--debug-log=steps.log", "missing.txt"]
    let i : Invocation :=
      { file := "missing.txt", flags := { debugLog := some "steps.log" }, save := true, clear := true }
    let after := (s.does (run e arguments)).2.disk
    ¬endedByArguments (s.does (run e arguments)).1.ending ∧
    s.disk.get? ["xdg", "work"] = none ∧ after.get? ["xdg", "work"] = some .directory ∧
    Request.read arguments = .ok (.walk i) ∧ Keeps s.disk after ∧
    ∀ place, after.get? place = s.disk.get? place ∨ Touches s e arguments i after place := by
  intro s e arguments i after
  have read : Request.read arguments = .ok (.walk i) := rfl
  have scanned : Flags.scan arguments = .ok i.flags := rfl
  have upward : Path.upward "xdg/textwalk" = ["xdg/textwalk", "xdg"] := by cbv
  have path : globalPath e = "xdg/textwalk/config" := by decide
  let made : Session :=
    { s with
      disk := (s.disk.set ["xdg", "work"] .directory).set ["textwalk", "xdg", "work"] .directory }
  have paves : s.does (Host.makeDirectories "xdg/textwalk") = (.ok (), made) := by
    rw [Host.makeDirectories, upward]
    rfl
  obtain ⟨settled, wrote, there⟩ : ∃ settled : Session,
      made.does (Settings.writeFlags "xdg/textwalk/config" i.flags) = (.ok (), settled) ∧
      settled.disk.get? ["xdg", "work"] = some .directory := ⟨_, rfl, rfl⟩
  have cleared : s.does (Settings.clear "xdg/textwalk/config") = (.ok (), s) := rfl
  have updated : s.does (updateSettings (globalPath e) i i.flags) = (.ok (), settled) := by
    rw [path, updateSettings, if_pos rfl, Session.doesBind, cleared]
    exact (Settings.saveBehind rfl paves i.flags).trans wrote
  have resolved := resolveCleared (e := e) scanned rfl updated
  obtain ⟨opened, before, ending, behind⟩ := performedAs resolved
  rw [← runPerforms read] at ending behind
  have reached : ¬endedByArguments (s.does (run e arguments)).1.ending := by
    rw [ending, verdictReached]
    exact Bool.false_ne_true
  obtain ⟨j, again, keeps, places, _⟩ := (touchesOnlyItsOwn s e arguments).2 reached
  cases read.symm.trans again
  exact ⟨reached, rfl, behind.directory _ (before.directory _ there), read, keeps, places⟩

end TextCursor.Run
