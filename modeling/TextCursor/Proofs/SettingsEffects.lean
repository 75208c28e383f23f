import TextCursor.Proofs.Alterations
import TextCursor.Proofs.Parents
import TextCursor.Proofs.Storing

/-! What settings do to the tree. Saving makes directories on the way and writes the file, clearing
removes it, and nothing else is different; loading looks only at what the path names. The paths of the
two settings files end in names of their own, and the local one is in the working directory whatever
else is there. -/
namespace TextCursor
open Disk (Alters Confined Spares)

namespace Disk
variable {d after : Disk} {path : String} {parent : Location} {name : String}

theorem entryNamed (entry : d.Entry path parent name) : (names path).getLast? = some name := by
  obtain ⟨_, _, before, names, _⟩ := entrySource entry.target
  rw [names, List.getLast?_concat]

theorem apartNames {other : String} (differ : (names path).getLast? ≠ (names other).getLast?) :
    ¬d.SameFile path other := by
  intro same
  obtain ⟨place, ⟨parent, name, entry, rfl⟩, parent', name', entry', shared⟩ := same
  rw [entryNamed entry, entryNamed entry', (List.cons.inj shared).1] at differ
  exact differ rfl

end Disk

namespace Settings

theorem localEntry (d : Disk) : d.Entry localPath d.working ".textwalkrc" := ⟨rfl, rfl⟩

theorem localFound (d : Disk) : d.found? localPath = d.get? (".textwalkrc" :: d.working) := by
  refine Option.ext fun node => ?_
  rw [Disk.foundExact]
  constructor
  · intro ⟨place, located⟩
    cases located with
    | here target => cases (localEntry d).target.symm.trans target
    | below target short there fits =>
      cases (localEntry d).target.symm.trans target
      exact there
  · intro there
    exact ⟨_, .below (localEntry d).target (localEntry d).short there nofun⟩

end Settings

namespace Session
variable {s : Session} {path : String}

theorem settledBy {tried : Except Fault Disk} {Comes : Disk → Prop} (same : Comes s.disk)
    (done : ∀ disk, tried = .ok disk → Comes disk) : Comes (s.settleDisk tried).2.disk := by
  cases tried with
  | error fault => exact same
  | ok disk => exact done disk rfl

theorem settleState (s : Session) (path : String) (made : Except Fault Unit) :
    (s.does (Host.settle path made)).2 = s := by
  cases made with
  | ok => rfl
  | error fault =>
    rw [Host.settle, doesBind, doesIsDirectory]
    cases s.disk.isDirectory path <;> rfl

theorem makeDirectoryAlters (s : Session) (path : String) :
    Alters s.disk (s.does (Host.makeDirectory path)).2.disk [] [path] :=
  settledBy (Disk.altersNothing _) fun _ => Disk.makeDirectoryAlters

theorem makeAlongAlters (s : Session) (paths : List String) :
    Alters s.disk (s.does (Host.makeAlong paths)).2.disk [] paths := by
  induction paths generalizing s with
  | nil => exact Disk.altersNothing _
  | cons path outer ih =>
    have first := makeDirectoryAlters s path
    rw [Host.makeAlong, doesBind]
    generalize s.does (Host.makeDirectory path) = made at first ⊢
    obtain ⟨result, middle⟩ := made
    split
    · have above := first.trans (ih middle) (.inl rfl)
      rw [doesBind]
      generalize middle.does (Host.makeAlong outer) = along at above ⊢
      obtain ⟨result, later⟩ := along
      cases result with
      | error fault => exact above
      | ok =>
        have again := above.trans (makeDirectoryAlters later path) (.inl rfl)
        simp only [doesBind, settleState]
        exact again.widen (List.Subset.refl _) (by simp)
    · rw [settleState]
      exact first.widen (List.Subset.refl _) (by simp)

theorem makeAlongThere {place : Location} (located : s.disk.locate path = .ok (place, .directory))
    (outer : List String) : s.does (Host.makeAlong (path :: outer)) = (.ok (), s) := by
  have made : s.does (Host.makeDirectory path) = (.error .alreadyExists, s) := by
    rw [doesMakeDirectory, Disk.makeDirectoryThere located]
    rfl
  have there : s.disk.isDirectory path = true := by rw [Disk.isDirectory, located]
  rw [Host.makeAlong, doesBind, made]
  simp only [Host.settle, doesBind, doesIsDirectory, there]
  rfl

end Session

namespace Settings
variable {s t : Session} {path : String} {f : Flags}

theorem loadFound (same : t.disk.found? path = s.disk.found? path) :
    (t.does (load path)).1 = (s.does (load path)).1 := by
  have there : t.disk.present path = s.disk.present path := by
    rw [Disk.presentFound, Disk.presentFound, same]
  rw [loadDoes, loadDoes, there]
  cases present : s.disk.present path with
  | false => rfl
  | true => rw [Disk.readText, Disk.readText, Disk.readSame same present]

def directories (path : String) : List String :=
  match directoryOf? path with
  | none => []
  | some parent => Path.upward parent

theorem directoriesBegin {front : String} (above : front ∈ directories path) :
    Path.Begins front.toList path.toList ∧ front.length < path.length := by
  rw [directories] at above
  split at above
  · contradiction
  · rename_i parent own
    have own := Path.parentText (Option.filter_eq_some_iff.mp own).1
    have begins := Path.upwardBegins above
    refine ⟨begins.trans (Path.parentBegins own), ?_⟩
    rw [← String.length_toList, ← String.length_toList]
    exact Nat.lt_of_le_of_lt begins.text.length_le (Path.parentShorter own)

theorem saveSteps (s : Session) (path : String) (f : Flags) :
    ∃ middle : Session, Alters s.disk middle.disk [] (directories path) ∧
      (s.does (save path f) = middle.does (writeFlags path f) ∨
        (s.does (save path f)).2 = middle ∧ (s.does (save path f)).1 ≠ .ok ()) := by
  rw [directories]
  cases own : directoryOf? path with
  | none =>
    refine ⟨s, Disk.altersNothing _, .inl ?_⟩
    rw [save, own]
  | some parent =>
    have made := Session.makeAlongAlters s (Path.upward parent)
    generalize along : s.does (Host.makeAlong (Path.upward parent)) = outcome at made
    obtain ⟨result, middle⟩ := outcome
    refine ⟨middle, made, ?_⟩
    cases result with
    | ok => exact .inl (saveBehind own along f)
    | error fault =>
      rw [saveBlocked own along]
      refine .inr ⟨rfl, fun fine => ?_⟩
      cases fine

theorem saveWrites {after : Session} (saved : s.does (save path f) = (.ok (), after)) :
    ∃ middle : Disk, Alters s.disk middle [] (directories path) ∧
      middle.write path (render f).toUTF8 = .ok after.disk := by
  obtain ⟨middle, made, written | ⟨_, failed⟩⟩ := saveSteps s path f
  · exact ⟨middle.disk, made, writeFlagsSource (written.symm.trans saved)⟩
  · exact absurd (congrArg Prod.fst saved) failed

theorem writeFlagsConfined (s : Session) (path : String) (f : Flags) :
    Confined s.disk (s.does (writeFlags path f)).2.disk [path] :=
  Session.settledBy (Disk.confinedSame _ _) fun _ => Disk.writeConfined

theorem saveAlters (s : Session) (path : String) (f : Flags) :
    Alters s.disk (s.does (save path f)).2.disk [path] (directories path) := by
  obtain ⟨middle, made, written | ⟨stopped, _⟩⟩ := saveSteps s path f
  · rw [written]
    have wrote : Alters middle.disk _ [path] [] := (writeFlagsConfined middle path f).alters
    have whole := made.trans wrote (.inl rfl)
    rwa [List.append_nil] at whole
  · rw [stopped]
    exact made.widen (List.nil_subset _) (List.Subset.refl _)

theorem saveThere {place : Location} (leads : s.disk.Leads path place) (f : Flags) :
    s.does (save path f) = s.does (writeFlags path f) := by
  obtain ⟨above, name, entry, _⟩ := leads
  cases own : directoryOf? path with
  | none => rw [save, own]
  | some parent =>
    obtain ⟨outside, inner⟩ := Option.filter_eq_some_iff.mp own
    have inner : parent.isEmpty = false := by simpa using inner
    have located := Disk.parentReached entry.target outside inner
    obtain ⟨outer, upward⟩ := Path.upwardFirst inner
    refine saveBehind own ?_ f
    rw [Host.makeDirectories, upward, Session.makeAlongThere located]

theorem saveSpares (s : Session) (path : String) (f : Flags) :
    Spares s.disk (s.does (save path f)).2.disk [path] := (saveAlters s path f).spares

theorem clearDoes (s : Session) (path : String) :
    s.does (clear path) =
      if s.disk.present path then
        ((s.settleDisk (s.disk.remove path)).1.mapError (.unremovable path),
          (s.settleDisk (s.disk.remove path)).2)
      else (.ok (), s) := by
  rw [clear, Session.doesBind, Session.doesPresent]
  cases s.disk.present path with
  | false => rfl
  | true =>
    rw [if_pos rfl, if_pos rfl, Session.doesBind, Session.doesRemove]
    rfl

theorem clearConfined (s : Session) (path : String) :
    Confined s.disk (s.does (clear path)).2.disk [path] := by
  rw [clearDoes]
  split
  · exact Session.settledBy (Disk.confinedSame _ _) fun _ => Disk.removeConfined
  · exact Disk.confinedSame _ _

theorem clearLeads (s : Session) (path : String) :
    (s.does (clear path)).2 = s ∨ ∃ place, (s.does (clear path)).2.disk.Leads path place := by
  rw [clearDoes]
  split
  · cases removed : s.disk.remove path with
    | error fault => exact .inl rfl
    | ok disk =>
      obtain ⟨parent, name, _, entry, _, _, _⟩ := Disk.removeSource removed
      exact .inr ⟨_, (Disk.removeConfined removed).toKeeps.leads ⟨parent, name, entry, rfl⟩⟩
  · exact .inl rfl

end Settings
end TextCursor
