import TextCursor.Proofs.LogWriting
import TextCursor.Proofs.SettingsEffects
import TextCursor.Run

/-! What a run does once its arguments are read. Up to the flags only settings change, and from then
on only the step log; how the run ends is told by the file alone, as it is when the log is open. -/
namespace TextCursor.Run
open Disk (Alters Confined Spares)

def rendering (f : Flags) (text : String) : String :=
  if f.summary then (Summary.ofText text).render ++ "\n" else printSteps f (Step.ofText text)

def verdict (d : Disk) (f : Flags) (file : String) : Ending :=
  if d.present file then
    match d.readText file with
    | .error fault => .failed (.fileUnreadable file fault)
    | .ok text => .printed (rendering f text)
  else .failed (.fileNotFound file)

variable {s : Session} {e : Environment} {arguments : List String} {i : Invocation} {f : Flags}

theorem timedDoes {α : Type} (s : Session) (label : String) (work : Unit → StateM Session α) :
    ∃ notices, s.does (timed label work) =
      (((s.readClock.2.does (work ())).1, notices), (s.readClock.2.does (work ())).2.readClock.2) := by
  simp only [timed, Session.doesBind, Session.doesIf]
  split
  · exact ⟨_, rfl⟩
  · exact ⟨_, rfl⟩

theorem reportDoes {paths : List String} (among : StepLog.WritesAmong s paths) (f : Flags)
    (text : String) :
    (s.does (report f text)).1.ending = .printed (rendering f text) ∧
      Confined s.disk (s.does (report f text)).2.disk paths := by
  rw [report, rendering, Session.doesIf]
  split
  · obtain ⟨notices, done⟩ := timedDoes s "textwalk.summarize" fun _ => pure (Summary.ofText text)
    rw [Session.doesBind, done]
    exact ⟨rfl, Disk.confinedSame _ _⟩
  · obtain ⟨notices, done⟩ := timedDoes s "textwalk.trace_steps" fun _ => StepLog.trace text
    rw [Session.doesBind, done, StepLog.traceSteps]
    exact ⟨rfl, StepLog.traceConfined (s := s.readClock.2) (among.carry rfl rfl) text⟩

theorem inspectDoes {paths : List String} (among : StepLog.WritesAmong s paths) (f : Flags)
    (file : String) :
    (s.does (inspect f file)).1.ending = verdict s.disk f file ∧
      Confined s.disk (s.does (inspect f file)).2.disk paths := by
  rw [inspect, verdict, Session.doesBind, Session.doesPresent, Session.doesIf]
  split
  · obtain ⟨notices, done⟩ := timedDoes s "textwalk.read_file" fun _ => Host.readText file
    rw [Session.doesBind, done, Session.doesReadTextOf]
    have disk : s.readClock.2.disk = s.disk := rfl
    rw [disk]
    cases s.disk.readText file with
    | error fault => exact ⟨rfl, Disk.confinedSame _ _⟩
    | ok text => exact reportDoes (s := s.readClock.2.readClock.2) (among.carry rfl rfl) f text
  · exact ⟨rfl, Disk.confinedSame _ _⟩

theorem startedState (s : Session) (e : Environment) (f : Flags) :
    (s.does (startDiagnostics e f)).2 =
      ({ s with timings := f.perf }.does (StepLog.direct (logPath? e f))).2 := by
  rw [startDiagnostics, Session.doesBind, Session.doesSetTimings, Session.doesBind]
  cases ({ s with timings := f.perf }.does (StepLog.direct (logPath? e f))).1 <;> rfl

theorem startedAmong (s : Session) (e : Environment) (f : Flags) :
    Confined s.disk (s.does (startDiagnostics e f)).2.disk (logPath? e f).toList ∧
      StepLog.WritesAmong (s.does (startDiagnostics e f)).2 (logPath? e f).toList := by
  rw [startedState]
  exact StepLog.directedAmong { s with timings := f.perf } (logPath? e f)

theorem verdictSame {d after : Disk} {f g : Flags} {file : String} (summary : f.summary = g.summary)
    (noHeader : f.noHeader = g.noHeader) (same : after.found? file = d.found? file) :
    verdict after f file = verdict d g file := by
  have there : after.present file = d.present file := by
    rw [Disk.presentFound, Disk.presentFound, same]
  have rendered : rendering f = rendering g := by
    funext text
    rw [rendering, rendering, printSteps, printSteps, summary, noHeader]
  rw [verdict, verdict, there]
  cases present : d.present file with
  | false => rfl
  | true => rw [Disk.readText, Disk.readText, Disk.readSame same present, rendered]

section
variable {middle : Session} (resolved : s.does (resolve e arguments i) = (.ok f, middle))
include resolved

theorem performInspects :
    (s.does (perform e arguments i)).1.ending =
        ((middle.does (startDiagnostics e f)).2.does (inspect f i.file)).1.ending ∧
      (s.does (perform e arguments i)).2 =
        ((middle.does (startDiagnostics e f)).2.does (inspect f i.file)).2 := by
  rw [perform, Session.doesBind, resolved]
  exact ⟨rfl, rfl⟩

theorem performedAs :
    ∃ opened : Disk, Confined middle.disk opened (logPath? e f).toList ∧
      (s.does (perform e arguments i)).1.ending = verdict opened f i.file ∧
      Confined opened (s.does (perform e arguments i)).2.disk (logPath? e f).toList := by
  obtain ⟨confined, among⟩ := startedAmong middle e f
  obtain ⟨ending, further⟩ := inspectDoes among f i.file
  obtain ⟨sameEnding, same⟩ := performInspects resolved
  rw [sameEnding, same]
  exact ⟨_, confined, ending, further⟩

end

theorem performFails {middle : Session} {error : RunError}
    (failed : s.does (resolve e arguments i) = (.error error, middle)) :
    s.does (perform e arguments i) = ({ ending := .failed error }, middle) := by
  rw [perform, Session.doesBind, failed]
  rfl

theorem runPerforms (read : Request.read arguments = .ok (.walk i)) :
    s.does (run e arguments) = s.does (perform e arguments i) := by
  rw [run, read]

theorem updateAlters (s : Session) (global : String) (i : Invocation) (given : Flags) :
    Alters s.disk (s.does (updateSettings global i given)).2.disk
      (if i.save || i.clear then [global] else [])
      (if i.save then Settings.directories global else []) := by
  rw [updateSettings]
  cases i.clear with
  | false =>
    cases i.save with
    | false => exact Disk.altersNothing _
    | true => exact Settings.saveAlters s global given
  | true =>
    have cleared := Settings.clearConfined s global
    have leads := Settings.clearLeads s global
    rw [if_pos rfl, Session.doesBind, Bool.or_true, if_pos rfl]
    generalize s.does (Settings.clear global) = first at cleared leads ⊢
    obtain ⟨result, middle⟩ := first
    cases result with
    | error error => exact cleared.alters
    | ok =>
      cases i.save with
      | false => exact cleared.alters
      | true =>
        rcases leads with rfl | ⟨place, leads⟩
        · exact Settings.saveAlters _ global given
        · simp only [if_true, Settings.saveThere leads]
          exact (cleared.trans (Settings.writeFlagsConfined middle global given)).alters

theorem savedFlagsState (s : Session) (global : String) : (s.does (savedFlags global)).2 = s := by
  rw [savedFlags, Session.doesBind, Settings.loadState]
  cases (s.does (Settings.load global)).1 with
  | error error => rfl
  | ok wide =>
    simp only [Session.doesBind, Settings.loadState]
    cases (s.does (Settings.load Settings.localPath)).1 <;> rfl

section
variable {given : Flags} (scanned : Flags.scan arguments = .ok given) {middle : Session}
include scanned

theorem resolveStops {error : Settings.StoreError}
    (stopped : s.does (updateSettings (Settings.globalPath e) i given) = (.error error, middle)) :
    s.does (resolve e arguments i) = (.error (.settings error), middle) := by
  rw [resolve, scanned]
  simp only [Session.doesBind, stopped]
  rfl

theorem resolveCleared (clears : i.clear = true)
    (updated : s.does (updateSettings (Settings.globalPath e) i given) = (.ok (), middle)) :
    s.does (resolve e arguments i) = (.ok (Flags.union {} given), middle) := by
  rw [resolve, scanned]
  simp only [Session.doesBind, updated, clears]
  rfl

theorem resolveLooks (keeps : i.clear = false)
    (updated : s.does (updateSettings (Settings.globalPath e) i given) = (.ok (), middle)) :
    s.does (resolve e arguments i) =
      (((middle.does (savedFlags (Settings.globalPath e))).1.mapError .settings).map (·.union given),
        middle) := by
  have still := savedFlagsState middle (Settings.globalPath e)
  rw [resolve, scanned]
  simp only [Session.doesBind, updated, keeps, Bool.false_eq_true, if_false]
  generalize middle.does (savedFlags (Settings.globalPath e)) = looked at still ⊢
  obtain ⟨result, after⟩ := looked
  rw [← still]
  cases result with
  | error error => rfl
  | ok saved => rfl

theorem resolveState : (s.does (resolve e arguments i)).2 =
    (s.does (updateSettings (Settings.globalPath e) i given)).2 := by
  generalize updated : s.does (updateSettings (Settings.globalPath e) i given) = outcome
  obtain ⟨result, middle⟩ := outcome
  cases result with
  | error error => rw [resolveStops scanned updated]
  | ok =>
    cases clears : i.clear with
    | true => rw [resolveCleared scanned clears updated]
    | false => rw [resolveLooks scanned clears updated]

end

theorem resolveAlters (s : Session) (e : Environment) (arguments : List String) (i : Invocation) :
    Alters s.disk (s.does (resolve e arguments i)).2.disk
      (if i.save || i.clear then [Settings.globalPath e] else [])
      (if i.save then Settings.directories (Settings.globalPath e) else []) := by
  cases scanned : Flags.scan arguments with
  | error error =>
    rw [resolve, scanned]
    exact Disk.altersNothing _
  | ok given =>
    rw [resolveState scanned]
    exact updateAlters s (Settings.globalPath e) i given

theorem resolveIdle (saves : i.save = false) (clears : i.clear = false) :
    (s.does (resolve e arguments i)).2 = s := by
  cases scanned : Flags.scan arguments with
  | error error =>
    rw [resolve, scanned]
    rfl
  | ok given =>
    rw [resolveState scanned, updateSettings, saves, clears]
    rfl

end TextCursor.Run
