import TextCursor.Proofs.RunEffects
import TextCursor.Proofs.SettingsEffects

/-! What a run leaves of the file it inspects, and what its result depends on. The file can only be
lost to the settings or to the step log, if one of them is kept under the same place; nothing here
stops a run from being told to log over the file it is to read. -/
namespace TextCursor
open Disk (Confined Spares)

namespace Run
variable {s t : Session} {e e' : Environment} {arguments arguments' : List String} {i j : Invocation}
  {f g : Flags}

/-- A run that gets to its file, stores no settings, and does not log over the file. A directory
cannot be logged over. -/
structure Watches (s : Session) (e : Environment) (arguments : List String) (i : Invocation)
    (f : Flags) : Prop where
  read : Request.read arguments = .ok (.walk i)
  saves : i.save = false
  clears : i.clear = false
  resolved : (s.does (resolve e arguments i)).1 = .ok f
  apart : ∀ log, logPath? e f = some log →
    ¬s.disk.SameFile log i.file ∨ s.disk.found? i.file = some .directory

theorem watchedEnding (watches : Watches s e arguments i f) :
    (s.does (run e arguments)).1.ending = verdict s.disk f i.file := by
  have resolved : s.does (resolve e arguments i) = (.ok f, s) :=
    Prod.ext watches.resolved (resolveIdle watches.saves watches.clears)
  obtain ⟨opened, confined, ending, _⟩ := performedAs resolved
  have same : opened.found? i.file = s.disk.found? i.file :=
    Disk.foundStill confined fun log member => watches.apart log (Option.mem_toList.mp member)
  rw [runPerforms watches.read, ending]
  exact verdictSame rfl rfl same

theorem diagnosticsDoNotMatter (first : Watches s e arguments i f) (second : Watches t e' arguments' j g)
    (tree : t.disk = s.disk) (file : j.file = i.file) (summary : g.summary = f.summary)
    (noHeader : g.noHeader = f.noHeader) :
    (t.does (run e' arguments')).1.code = (s.does (run e arguments)).1.code ∧
      (t.does (run e' arguments')).1.output = (s.does (run e arguments)).1.output := by
  have same : (t.does (run e' arguments')).1.ending = (s.does (run e arguments)).1.ending := by
    rw [watchedEnding first, watchedEnding second, tree, file]
    exact verdictSame summary noHeader rfl
  exact ⟨by rw [Outcome.code, Outcome.code, same], by rw [Outcome.output, Outcome.output, same]⟩

theorem diagnosticsDoNotMatterToTheTable :
    let d : Disk := Disk.bare.set ["notes.txt", "work"] (.file 0 "a\r\n".toUTF8)
    let s : Session := { disk := d }
    let t : Session := { disk := d, readings := [7, 9] }
    let logged := ["--debug-log=steps.log", "notes.txt"]
    let refused := ["--perf", "--", "notes.txt"]
    let full : Environment := { stepLog := some "/dev/full" }
    let i : Invocation :=
      { file := "notes.txt", flags := { debugLog := some "steps.log" }, save := false, clear := false }
    let j : Invocation :=
      { file := "notes.txt", flags := { perf := true }, save := false, clear := false }
    Watches s {} logged i i.flags ∧ Watches t full refused j j.flags ∧
    (t.does (run full refused)).1.code = (s.does (run {} logged)).1.code ∧
    (t.does (run full refused)).1.output = (s.does (run {} logged)).1.output := by
  intro d s t logged refused full i j
  have first : Watches s {} logged i i.flags := by
    refine ⟨rfl, rfl, rfl, rfl, ?_⟩
    intro path own
    cases own
    exact .inl (Disk.apartNames (by decide))
  have second : Watches t { stepLog := some "/dev/full" } refused j j.flags := by
    refine ⟨rfl, rfl, rfl, rfl, ?_⟩
    intro path own
    cases own
    exact .inl (Disk.apartNames (by decide))
  exact ⟨first, second, diagnosticsDoNotMatter first second rfl rfl rfl rfl⟩

end Run
end TextCursor
