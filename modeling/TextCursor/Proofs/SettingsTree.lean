import TextCursor.Proofs.SettingsEffects

/-! A tree before and behind what is done with settings. Saving leaves one file and the directories
on its way, or only some of these if it fails; clearing takes that file away again and leaves the
directories. -/
namespace TextCursor

namespace Disk
variable {d after : Disk} {path : String} {parent place : Location} {name : String}
  {bytes content : ByteArray} {number : Nat}

def Paved (d after : Disk) (path : String) (place : Location) : Prop :=
  ∃ front : String, Path.Begins front.toList path.toList ∧ front.length < path.length ∧
    DirectoryMade d after front place

theorem writtenOver (written : d.write path bytes = .ok after) (entry : d.Entry path parent name)
    (there : after.get? (name :: parent) = some (.file number content)) :
    d.get? (name :: parent) = none ∨
      ∃ number content, d.get? (name :: parent) = some (.file number content) := by
  obtain ⟨⟨opened, sink⟩, created, put⟩ := Failure.boundOk.mp written
  cases createSource created with
  | made own missing =>
    cases own.target.symm.trans entry.target
    exact .inl missing
  | emptied own old =>
    cases own.target.symm.trans entry.target
    exact .inr ⟨_, _, old⟩
  | null own device =>
    cases own.target.symm.trans entry.target
    cases put
    cases device.symm.trans there
  | full own device =>
    cases own.target.symm.trans entry.target
    simp only [Disk.put] at put
    split at put
    · cases put
      cases device.symm.trans there
    · contradiction

theorem plainFile {node : Node} (plain : ¬d.NamesDevice path)
    (located : d.locate path = .ok (place, node)) (other : node ≠ .directory) :
    ∃ number content, node = .file number content := by
  have found := foundLocated located
  cases node with
  | directory => contradiction
  | file number content => exact ⟨number, content, rfl⟩
  | nullDevice => exact absurd ⟨_, found, .inl rfl⟩ plain
  | fullDevice => exact absurd ⟨_, found, .inr rfl⟩ plain

theorem removedAbsent (removed : d.remove path = .ok after) : after.present path = false := by
  obtain ⟨parent, name, _, entry, _, _, rfl⟩ := removeSource removed
  have kept := entryKept (removeConfined removed).toKeeps entry
  rw [presentFound, Option.isSome_eq_false_iff, Option.isNone_iff_eq_none,
    Option.eq_none_iff_forall_ne_some]
  intro node found
  obtain ⟨place, located⟩ := foundExact.mp found
  cases located with
  | here target => cases kept.target.symm.trans target
  | below target _ there =>
    cases kept.target.symm.trans target
    rw [getErase d (List.cons_ne_nil _ _)] at there
    contradiction

end Disk

namespace Settings
open Disk (Alters Paved)
variable {s after : Session} {path : String} {f : Flags} {error : StoreError}

theorem alteredPaved {d after : Disk} (alters : Alters d after [] (directories path))
    (place : Location) : after.get? place = d.get? place ∨ Paved d after path place := by
  rcases alters.places place with same | ⟨_, member, _⟩ | ⟨front, member, made⟩
  · exact .inl same
  · contradiction
  · obtain ⟨begins, shorter⟩ := directoriesBegin member
    exact .inr ⟨front, begins, shorter, made⟩

theorem writeFlagsFails (failed : s.does (writeFlags path f) = (.error error, after)) : after = s := by
  rw [writeFlags, Session.doesBind, Session.doesWrite] at failed
  cases written : s.disk.write path (render f).toUTF8 with
  | error fault =>
    rw [written] at failed
    exact (Prod.mk.inj failed).2.symm
  | ok disk =>
    rw [written] at failed
    cases (Prod.mk.inj failed).1

theorem saveFails (failed : s.does (save path f) = (.error error, after)) :
    Alters s.disk after.disk [] (directories path) := by
  obtain ⟨middle, made, written | ⟨stopped, _⟩⟩ := saveSteps s path f
  · rw [writeFlagsFails (written.symm.trans failed)]
    exact made
  · rw [failed] at stopped
    rwa [← stopped] at made

theorem joinedLines (line : String) (more : List String) :
    "\n".intercalate (line :: more) ++ "\n" = String.join ((line :: more).map (· ++ "\n")) := by
  induction more generalizing line with
  | nil => simp
  | cons next more ih =>
    rw [List.map_cons, String.join_cons, ← ih, String.intercalate_cons_cons, String.append_assoc]

theorem renderLines (f : Flags) :
    render f = "# textwalk defaults (saved with --save)\n" ++
      (if f.summary then "--summary\n" else "") ++
      (if f.noHeader then "--no-header\n" else "") ++
      (if f.perf then "--perf\n" else "") ++
      (match f.debugLog with
        | none => ""
        | some log => "--debug-log=" ++ log ++ "\n") := by
  have switch (on : Bool) (name : String) :
      String.join ((if on then [name] else []).map (· ++ "\n")) = if on then name ++ "\n" else "" := by
    cases on <;> simp
  have path : String.join ((f.debugLog.map ("--debug-log=" ++ ·)).toList.map (· ++ "\n")) =
      match f.debugLog with
      | none => ""
      | some log => "--debug-log=" ++ log ++ "\n" := by
    cases f.debugLog <;> simp
  rw [render, joinedLines, List.map_cons, String.join_cons]
  simp only [Flags.tokens, List.map_append, String.join_append, switch, path, String.append_assoc]
  rfl

structure Saved (d after : Disk) (path : String) (f : Flags) (place : Location) : Prop where
  located : ∃ number, after.locate path = .ok (place, .file number
    ("# textwalk defaults (saved with --save)\n" ++
      (if f.summary then "--summary\n" else "") ++
      (if f.noHeader then "--no-header\n" else "") ++
      (if f.perf then "--perf\n" else "") ++
      (match f.debugLog with
        | none => ""
        | some log => "--debug-log=" ++ log ++ "\n")).toUTF8)
  before : d.get? place = none ∨ ∃ number content, d.get? place = some (.file number content)
  others : ∀ other, other ≠ place → after.get? other = d.get? other ∨ Paved d after path other

theorem savedFile (saved : s.does (save path f) = (.ok (), after))
    (plain : ¬after.disk.NamesDevice path) :
    ∃ parent name, after.disk.Entry path parent name ∧
      Saved s.disk after.disk path f (name :: parent) := by
  obtain ⟨middle, made, written⟩ := saveWrites saved
  cases Disk.writeSource written with
  | @file parent name number entry rewritten =>
    have kept := Disk.entryKept rewritten.keeps entry
    refine ⟨parent, name, kept, ⟨number, ?located⟩, ?before, ?others⟩
    case located =>
      rw [← renderLines f]
      exact Disk.locateEntry kept rewritten.held
    case before =>
      -- What was made on the way is a directory, and no file can be written there.
      have free := Disk.writtenOver written entry rewritten.held
      rcases made.places (name :: parent) with same | ⟨_, member, _⟩ | ⟨_, _, directory⟩
      · rwa [same] at free
      · contradiction
      · exact absurd directory.there rewritten.free
    case others =>
      intro other apart
      rw [rewritten.others other apart]
      rcases alteredPaved made other with same | ⟨front, begins, shorter, directory⟩
      · exact .inl same
      · exact .inr ⟨front, begins, shorter, directory.kept rewritten.keeps⟩
  | device entry same there device =>
    rw [same] at plain
    exact absurd ⟨_, Disk.foundLocated (Disk.locateEntry entry there), device⟩ plain

theorem clearFails (failed : s.does (clear path) = (.error error, after)) : after = s := by
  rw [clearDoes] at failed
  split at failed
  · cases removed : s.disk.remove path with
    | error fault =>
      rw [removed] at failed
      exact (Prod.mk.inj failed).2.symm
    | ok disk =>
      rw [removed] at failed
      cases (Prod.mk.inj failed).1
  · cases failed

theorem clearSource (cleared : s.does (clear path) = (.ok (), after)) :
    s.disk.present path = false ∧ after = s ∨ s.disk.remove path = .ok after.disk := by
  rw [clearDoes] at cleared
  split at cleared
  · obtain ⟨fine, rfl⟩ := Prod.mk.inj cleared
    exact .inr (Session.settleSource (Failure.renamedOk.mp fine))
  · rename_i absent
    exact .inl ⟨eq_false_of_ne_true absent, (Prod.mk.inj cleared).2.symm⟩

theorem clearedLoads (cleared : s.does (clear path) = (.ok (), after)) :
    after.does (load path) = (.ok {}, after) := by
  have absent : after.disk.present path = false := by
    rcases clearSource cleared with ⟨absent, rfl⟩ | removed
    · exact absent
    · exact Disk.removedAbsent removed
  rw [loadDoes, absent]
  rfl

theorem clearRemoves {parent : Location} {name : String} {node : Node}
    (entry : s.disk.Entry path parent name) (there : s.disk.get? (name :: parent) = some node)
    (file : node ≠ .directory) :
    s.does (clear path) = (.ok (), { s with disk := s.disk.erase (name :: parent) }) := by
  have present : s.disk.present path = true := by
    rw [Disk.present, Disk.locateEntry entry there]
    rfl
  have removed : s.disk.remove path = .ok (s.disk.erase (name :: parent)) := by
    cases node with
    | directory => contradiction
    | _ => simp [Disk.remove, entry.target, entry.short, there, bind, Except.bind]
  rw [clearDoes, if_pos present, removed]
  rfl

/- Directories on the way may be missing at first, so that a path names a device only once they
are made. -/
theorem settingsTouchOneFile (s : Session) (path : String) (f : Flags) :
    (∀ after, s.does (save path f) = (.ok (), after) → ¬after.disk.NamesDevice path →
      ∃ place, Saved s.disk after.disk path f place ∧
        ∃ cleared, after.does (clear path) = (.ok (), cleared) ∧
          cleared.disk.get? place = none ∧
          ∀ other, other ≠ place → cleared.disk.get? other = after.disk.get? other) ∧
    (∀ after error, s.does (save path f) = (.error error, after) →
      ∀ place, after.disk.get? place = s.disk.get? place ∨ Paved s.disk after.disk path place) ∧
    (∀ after, s.does (clear path) = (.ok (), after) →
      after.does (load path) = (.ok {}, after) ∧
      (¬s.disk.NamesDevice path → ∀ place, after.disk.get? place = s.disk.get? place ∨
        after.disk.get? place = none ∧
          ∃ number content, s.disk.locate path = .ok (place, .file number content))) ∧
    (∀ after error, s.does (clear path) = (.error error, after) → after = s) ∧
    (s.does (load path)).2 = s := by
  refine ⟨?saved, ?unsaved, ?cleared, fun after error => clearFails, loadState s path⟩
  case saved =>
    intro after saved plain
    obtain ⟨parent, name, entry, own⟩ := savedFile saved plain
    obtain ⟨number, located⟩ := own.located
    rw [← renderLines f] at located
    have there : after.disk.get? (name :: parent) = some (.file number (render f).toUTF8) := by
      cases Disk.locatedExact.mp located with
      | below target _ there => exact there
    refine ⟨_, own, _, clearRemoves entry there (by simp), Disk.getErase _ (List.cons_ne_nil _ _), ?_⟩
    exact fun other apart => Disk.getEraseElse _ apart
  case unsaved =>
    intro after error failed
    exact alteredPaved (saveFails failed)
  case cleared =>
    intro after cleared
    refine ⟨clearedLoads cleared, fun plain place => ?_⟩
    rcases clearSource cleared with ⟨_, rfl⟩ | removed
    · exact .inl rfl
    · obtain ⟨parent, name, node, entry, there, file, same⟩ := Disk.removeSource removed
      rw [same]
      rcases Decidable.em (place = name :: parent) with rfl | apart
      · have located := Disk.locateEntry entry there
        obtain ⟨number, content, rfl⟩ := Disk.plainFile plain located file
        exact .inr ⟨Disk.getErase _ (List.cons_ne_nil _ _), number, content, located⟩
      · exact .inl (Disk.getEraseElse _ apart)

/- Dots lead out of a directory that has to be made first. The file that is in the way of the second
path is met only when this has been done. -/
theorem settingsTouchOneFileBehindDots :
    let d := Disk.bare.set ["config", "work"] (.file 7 "--perf".toUTF8)
    let s : Session := { disk := d }
    let f : Flags := { summary := true, debugLog := some "my steps.log" }
    let after := (s.does (save "a/../config" f)).2
    let stopped := (s.does (save "a/../config/b" f)).2
    s.does (save "a/../config" f) = (.ok (), after) ∧ ¬after.disk.NamesDevice "a/../config" ∧
    (∃ place, Saved d after.disk "a/../config" f place) ∧
    after.disk.Holds "a/../config"
      "# textwalk defaults (saved with --save)\n--summary\n--debug-log=my steps.log\n".toUTF8 ∧
    (∃ cleared, after.does (clear "a/../config") = (.ok (), cleared) ∧
      cleared.does (load "a/../config") = (.ok {}, cleared)) ∧
    s.does (save "a/../config/b" f) = (.error (.noDirectory "a/../config" .alreadyExists), stopped) ∧
    (∀ place, stopped.disk.get? place = d.get? place ∨ Paved d stopped.disk "a/../config/b" place) ∧
    d.get? ["a", "work"] = none ∧ stopped.disk.get? ["a", "work"] = some .directory := by
  intro d s f after stopped
  let made : Session := { s with disk := d.set ["a", "work"] .directory }
  have upward : Path.upward "a/.." = ["a/..", "a"] := by cbv
  have along : s.does (Host.makeAlong ["a/..", "a"]) = (.ok (), made) := rfl
  have paves : s.does (Host.makeDirectories "a/..") = (.ok (), made) := by
    rw [Host.makeDirectories, upward, along]
  obtain ⟨written, wrote, ⟨number, content, file⟩⟩ : ∃ written : Session,
      made.does (writeFlags "a/../config" f) = (.ok (), written) ∧
      ∃ number content, written.disk.found? "a/../config" = some (.file number content) :=
    ⟨_, rfl, _, _, rfl⟩
  have saved : s.does (save "a/../config" f) = (.ok (), written) := (saveBehind rfl paves f).trans wrote
  have plain : ¬written.disk.NamesDevice "a/../config" := by
    rintro ⟨node, found, device⟩
    cases file.symm.trans found
    simp at device
  have upwardFile : Path.upward "a/../config" = ["a/../config", "a/..", "a"] := by cbv
  have missing : s.does (Host.makeDirectory "a/../config") = (.error .notFound, s) := rfl
  have there : made.does (Host.makeDirectory "a/../config") = (.error .alreadyExists, made) := rfl
  have noDirectory : made.disk.isDirectory "a/../config" = false := rfl
  have blocked : s.does (Host.makeDirectories "a/../config") = (.error .alreadyExists, made) := by
    rw [Host.makeDirectories, upwardFile, Host.makeAlong, Session.doesBind, missing]
    simp only [Session.doesBind, along, there, Host.settle, Session.doesIsDirectory, noDirectory]
    rfl
  have failed : s.does (save "a/../config/b" f) =
      (.error (.noDirectory "a/../config" .alreadyExists), made) := saveBlocked rfl blocked f
  obtain ⟨place, own, cleared, clears, _⟩ :=
    (settingsTouchOneFile s "a/../config" f).1 written saved plain
  have paved := (settingsTouchOneFile s "a/../config/b" f).2.1 made _ failed
  have loads := ((settingsTouchOneFile written "a/../config" f).2.2.1 cleared clears).1
  simp only [after, stopped, saved, failed]
  obtain ⟨number, located⟩ := own.located
  exact ⟨trivial, plain, ⟨place, own⟩, ⟨place, number, located⟩, ⟨cleared, clears, loads⟩, trivial,
    paved, rfl, rfl⟩

end Settings
end TextCursor
