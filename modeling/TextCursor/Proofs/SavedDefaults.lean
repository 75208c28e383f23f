import TextCursor.Proofs.ArgumentFlags
import TextCursor.Proofs.LaidOver
import TextCursor.Proofs.RunEffects
import TextCursor.Proofs.SavedFlags
import TextCursor.Proofs.SettingsEffects

/-! Flags that a run saves are in effect in the next one. The run lays the settings files, its own
saved flags among them, under its arguments; the next one finds the same files and has no
arguments, and what they would have added is saved already. -/
namespace TextCursor
open Disk (Confined Spares)

namespace Settings
variable {s after : Session} {e : Environment} {path : String} {f : Flags}

theorem loadedNoDirectory (loaded : (s.does (load path)).1 = .ok f) :
    s.disk.found? path ≠ some .directory := by
  intro directory
  obtain ⟨place, located⟩ := Disk.locateFound directory
  have present : s.disk.present path := by rw [Disk.present, located]; rfl
  rw [loadDoes, if_pos present, Disk.readText, Disk.read, located] at loaded
  contradiction

theorem loadedStill {paths : List String} (confined : Confined s.disk after.disk paths)
    (apart : ∀ other ∈ paths, ¬s.disk.SameFile other path) (loaded : (s.does (load path)).1 = .ok f) :
    (after.does (load path)).1 = .ok f := by
  rw [loadFound (Disk.foundStill confined fun other member => .inl (apart other member)), loaded]

theorem savedHolds (plain : ¬after.disk.NamesDevice path)
    (saved : s.does (save path f) = (.ok (), after)) :
    after.disk.Holds path (render f).toUTF8 := by
  obtain ⟨middle, made, written⟩ := saveWrites saved
  cases Disk.writeSource written with
  | file entry rewritten =>
    exact Disk.placeHolds ⟨_, _, Disk.entryKept rewritten.keeps entry, rfl⟩ rewritten.held
  | device entry same there device =>
    rw [same] at plain
    exact absurd ⟨_, Disk.foundLocated (Disk.locateEntry entry there), device⟩ plain

theorem savedLoads (plain : ¬after.disk.NamesDevice path)
    (saved : s.does (save path f) = (.ok (), after))
    (storable : ∀ log, f.debugLog = some log → Storable log) :
    (after.does (load path)).1 = .ok f := by
  rw [loadHeld (savedHolds plain saved), (parseRender f).mpr storable]
  rfl

end Settings

namespace Run
open Settings (globalPath localPath load)
variable {s t : Session} {e : Environment} {arguments : List String} {i : Invocation}
  {f g saved near : Flags}

theorem savedFlagsSource {global : String} (found : (s.does (savedFlags global)).1 = .ok saved) :
    ∃ wide near, (s.does (load global)).1 = .ok wide ∧ (s.does (load localPath)).1 = .ok near ∧
      saved = wide.union near := by
  rw [savedFlags, Session.doesBind, Settings.loadState] at found
  cases wide : (s.does (load global)).1 with
  | error error =>
    rw [wide] at found
    contradiction
  | ok wide' =>
    rw [wide] at found
    simp only [Session.doesBind, Settings.loadState] at found
    cases near : (s.does (load localPath)).1 with
    | error error =>
      rw [near] at found
      contradiction
    | ok near' =>
      rw [near] at found
      cases found
      exact ⟨wide', near', rfl, rfl, rfl⟩

theorem resolvedSource (saves : i.save = true) (keeps : i.clear = false)
    (scanned : Flags.scan arguments = .ok g) (resolved : s.does (resolve e arguments i) = (.ok f, t)) :
    s.does (Settings.save (globalPath e) g) = (.ok (), t) ∧
      ∃ wide near, (t.does (load (globalPath e))).1 = .ok wide ∧
        (t.does (load localPath)).1 = .ok near ∧ f = (wide.union near).union g := by
  have update : s.does (updateSettings (globalPath e) i g) =
      s.does (Settings.save (globalPath e) g) := by
    rw [updateSettings, keeps, saves]
    rfl
  generalize s.does (Settings.save (globalPath e) g) = stored at update ⊢
  obtain ⟨result, middle⟩ := stored
  cases result with
  | error error =>
    rw [resolveStops scanned update] at resolved
    cases resolved
  | ok =>
    rw [resolveLooks scanned keeps update] at resolved
    obtain ⟨laid, same⟩ := Prod.mk.inj resolved
    obtain ⟨saved, found, rfl⟩ := Failure.mappedOk.mp laid
    obtain ⟨wide, near, global, here, rfl⟩ := savedFlagsSource (Failure.renamedOk.mp found)
    rw [same] at global here ⊢
    exact ⟨rfl, wide, near, global, here, rfl⟩

theorem laidAgain (quiet : near.debugLog = none ∨ near = g) :
    (g.union near).union g = g.union near := by
  rcases quiet with none | rfl
  · cases g
    cases near
    cases none
    simp [Flags.union, Bool.or_comm]
  · cases near
    simp [Flags.union]

theorem nearQuiet (plain : ¬t.disk.NamesDevice (globalPath e))
    (stored : s.does (Settings.save (globalPath e) g) = (.ok (), t))
    (storable : ∀ log, g.debugLog = some log → Settings.Storable log)
    (quiet : t.disk.SameFile localPath (globalPath e) ∨
      ∀ near, (s.does (load localPath)).1 = .ok near → near.debugLog = none)
    (loaded : (t.does (load localPath)).1 = .ok near) : near.debugLog = none ∨ near = g := by
  have spares : Spares s.disk t.disk [globalPath e] := by
    have spares := Settings.saveSpares s (globalPath e) g
    rwa [stored] at spares
  have held := Settings.savedHolds plain stored
  have here : t.disk.Leads localPath (".textwalkrc" :: t.disk.working) :=
    ⟨_, _, Settings.localEntry t.disk, rfl⟩
  rcases Classical.em (t.disk.SameFile localPath (globalPath e)) with same | apart
  · refine .inr ?_
    obtain ⟨place, number, leads, there⟩ := Disk.holdsPlace held
    obtain ⟨shared, own, other⟩ := same
    cases Disk.leadsOnce leads other
    rw [Settings.loadHeld (Disk.placeHolds own there), (Settings.parseRender g).mpr storable] at loaded
    exact (Except.ok.inj loaded).symm
  · refine .inl ?_
    have unset := quiet.resolve_left apart
    rcases spares.places (".textwalkrc" :: t.disk.working) with ⟨path, member, leads⟩ | same | ⟨_, made⟩
    · cases List.mem_singleton.mp member
      exact absurd ⟨_, here, leads⟩ apart
    · have found : t.disk.found? localPath = s.disk.found? localPath := by
        rw [Settings.localFound, Settings.localFound, same, spares.working]
      exact unset near ((Settings.loadFound found).symm.trans loaded)
    · rw [← Settings.localFound] at made
      exact absurd made (Settings.loadedNoDirectory loaded)

/-- A run that saves the flags given to it and gets to its file, in a place where they can be read
again: the log is neither settings file, and no log of the local file can come in between. -/
structure Stores (s : Session) (e : Environment) (arguments : List String) (i : Invocation)
    (given flags : Flags) (settled : Session) : Prop where
  read : Request.read arguments = .ok (.walk i)
  saves : i.save = true
  keeps : i.clear = false
  scanned : Flags.scan arguments = .ok given
  storable : ∀ log, given.debugLog = some log → Settings.Storable log
  resolved : s.does (resolve e arguments i) = (.ok flags, settled)
  noDevice : ¬settled.disk.NamesDevice (globalPath e)
  apart : ∀ log, logPath? e flags = some log →
    ¬settled.disk.SameFile log (globalPath e) ∧ ¬settled.disk.SameFile log localPath
  quiet : settled.disk.SameFile localPath (globalPath e) ∨
    ∀ near, (s.does (load localPath)).1 = .ok near → near.debugLog = none

theorem savedFlagsReplay {given flags : Flags} {settled : Session} {later : List String} {file : String}
    (stores : Stores s e arguments i given flags settled) (plain : Flags.isKnown file = false)
    (again : Request.read later = .ok (.walk { file, flags := {}, save := false, clear := false })) :
    ((s.does (run e arguments)).2.restart.does
      (resolve e later { file, flags := {}, save := false, clear := false })).1 = .ok flags := by
  obtain ⟨stored, wide, near, global, here, rfl⟩ :=
    resolvedSource stores.saves stores.keeps stores.scanned stores.resolved
  have own : wide = given :=
    Except.ok.inj (global.symm.trans (Settings.savedLoads stores.noDevice stored stores.storable))
  have silent := nearQuiet stores.noDevice stored stores.storable stores.quiet here
  obtain ⟨opened, before, _, behind⟩ := performedAs stores.resolved
  rw [← runPerforms stores.read] at behind
  generalize (s.does (run e arguments)).2 = after at behind ⊢
  have logged : Confined settled.disk after.restart.disk _ := before.trans behind
  have apart := fun log member => stores.apart log (Option.mem_toList.mp member)
  have global := Settings.loadedStill logged (fun log member => (apart log member).1) global
  have here := Settings.loadedStill logged (fun log member => (apart log member).2) here
  rw [resolvedUnchanged rfl rfl global here (Request.scanPlain again plain), Flags.unionDefault, own,
    laidAgain silent]

/- The saved path comes back beside the switch of a local file, though the first run had no file. -/
theorem savedFlagsReplayPastMissingFile :
    let s : Session := { disk := Disk.bare.set [".textwalkrc", "work"] (.file 0 "--perf\n".toUTF8) }
    let e : Environment := { configHome := some "xdg" }
    let arguments := ["--save", "--no-header", "--debug-log=steps.log", "missing.txt"]
    let given : Flags := { noHeader := true, debugLog := some "steps.log" }
    let flags : Flags := { noHeader := true, perf := true, debugLog := some "steps.log" }
    let i : Invocation := { file := "missing.txt", flags := given, save := true, clear := false }
    let settled := (s.does (Settings.save (globalPath e) given)).2
    Stores s e arguments i given flags settled ∧ Flags.isKnown "notes.txt" = false ∧
    ((s.does (run e arguments)).2.restart.does
      (resolve e ["notes.txt"] { file := "notes.txt", flags := {}, save := false, clear := false })).1 =
        .ok flags := by
  intro s e arguments given flags i settled
  have path : globalPath e = "xdg/textwalk/config" := by decide
  have upward : Path.upward "xdg/textwalk" = ["xdg/textwalk", "xdg"] := by cbv
  let made : Session :=
    { s with
      disk := (s.disk.set ["xdg", "work"] .directory).set ["textwalk", "xdg", "work"] .directory }
  have paves : s.does (Host.makeDirectories "xdg/textwalk") = (.ok (), made) := by
    rw [Host.makeDirectories, upward]
    rfl
  obtain ⟨written, wrote, ⟨number, content, file⟩⟩ : ∃ written : Session,
      made.does (Settings.writeFlags "xdg/textwalk/config" given) = (.ok (), written) ∧
      ∃ number content, written.disk.found? "xdg/textwalk/config" = some (.file number content) :=
    ⟨_, rfl, _, _, rfl⟩
  have saved : s.does (Settings.save (globalPath e) given) = (.ok (), written) := by
    rw [path, Settings.saveBehind rfl paves, wrote]
  have fine : (s.does (Settings.save (globalPath e) given)).1 = .ok () := by rw [saved]
  have stored : s.does (Settings.save (globalPath e) given) = (.ok (), settled) := Prod.ext fine rfl
  have noDevice : ¬settled.disk.NamesDevice (globalPath e) := by
    have same : settled = written := congrArg Prod.snd saved
    rw [same, path]
    rintro ⟨node, found, device⟩
    cases file.symm.trans found
    simp at device
  have updated : s.does (updateSettings (globalPath e) i given) = (.ok (), settled) := stored
  have storable : ∀ log, given.debugLog = some log → Settings.Storable log := by
    intro log own
    cases own
    exact Settings.storableOfTrim (by decide) (by decide) (by decide)
  have spares : Disk.Spares s.disk settled.disk [globalPath e] := Settings.saveSpares s _ given
  have held : s.disk.Holds localPath "--perf\n".toUTF8 := ⟨_, _, rfl⟩
  have perf : Settings.parse "--perf\n" = .ok { perf := true } := by
    have tokens : Settings.tokens "--perf\n".toList = ["--perf"] := by decide
    rw [Settings.parse, tokens]
    rfl
  have still : settled.disk.Holds localPath "--perf\n".toUTF8 :=
    Disk.stillHolds spares (List.forall_mem_singleton.mpr (Disk.apartNames (by decide))) held
  have wide := Settings.savedLoads noDevice stored storable
  have near := (Settings.loadedFlags still).mpr perf
  have resolved : s.does (resolve e arguments i) = (.ok flags, settled) := by
    rw [resolveLooks rfl rfl updated, savedFlagsLoaded wide near]
    rfl
  have stores : Stores s e arguments i given flags settled := by
    refine ⟨rfl, rfl, rfl, rfl, storable, resolved, noDevice, ?apart, .inr ?quiet⟩
    case apart =>
      intro log own
      cases own
      exact ⟨Disk.apartNames (by decide), Disk.apartNames (by decide)⟩
    case quiet =>
      intro near loaded
      cases Except.ok.inj (perf.symm.trans ((Settings.loadedFlags held).mp loaded))
      rfl
  exact ⟨stores, by decide, savedFlagsReplay stores (by decide) rfl⟩

end Run
end TextCursor
