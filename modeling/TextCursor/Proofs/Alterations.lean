import TextCursor.Proofs.Confinement

/-! What an operation alters, place by place: the files that paths lead to, and new directories that
paths name. What was no directory and is removed does not come back as one, as long as directories
are made first or not at all. -/
namespace TextCursor.Disk

structure FileChanged (d after : Disk) (path : String) (place : Location) : Prop where
  leads : after.Leads path place
  before : d.get? place ≠ some .directory
  behind : after.get? place ≠ some .directory

structure DirectoryMade (d after : Disk) (path : String) (place : Location) : Prop where
  missing : d.get? place = none
  there : after.get? place = some .directory
  located : after.locate path = .ok (place, .directory)

/-- All is as it was but for files of some paths, and new directories of others. -/
structure Alters (d after : Disk) (files directories : List String) : Prop extends Keeps d after where
  places : ∀ place, after.get? place = d.get? place ∨
    (∃ path ∈ files, FileChanged d after path place) ∨
    ∃ path ∈ directories, DirectoryMade d after path place

section
variable {d middle after : Disk} {path : String} {place : Location}
  {files more directories further : List String}

theorem FileChanged.kept (changed : FileChanged d middle path place) (keeps : Keeps middle after)
    (same : after.get? place = middle.get? place) : FileChanged d after path place :=
  ⟨keeps.leads changed.leads, changed.before, same ▸ changed.behind⟩

theorem DirectoryMade.kept (made : DirectoryMade d middle path place) (keeps : Keeps middle after) :
    DirectoryMade d after path place :=
  ⟨made.missing, keeps.directory _ made.there,
    locatedExact.mpr (locatedKept keeps (locatedExact.mp made.located))⟩

theorem altersNothing (d : Disk) : Alters d d files directories where
  working := rfl
  directory _ there := there
  places _ := .inl rfl

theorem Alters.widen (alters : Alters d after files directories) (wider : files ⊆ more)
    (above : directories ⊆ further) : Alters d after more further where
  toKeeps := alters.toKeeps
  places place := by
    rcases alters.places place with same | ⟨path, member, changed⟩ | ⟨path, member, made⟩
    · exact .inl same
    · exact .inr (.inl ⟨path, wider member, changed⟩)
    · exact .inr (.inr ⟨path, above member, made⟩)

theorem Confined.alters (confined : Confined d after files) : Alters d after files directories where
  toKeeps := confined.toKeeps
  places place := by
    rcases Classical.em (after.get? place = d.get? place) with same | differ
    · exact .inl same
    · obtain ⟨path, member, leads⟩ := (confined.elsewhere place).resolve_right differ
      refine .inr (.inl ⟨path, member, confined.toKeeps.leads leads, ?_, ?_⟩)
      · exact fun there => differ ((confined.directory _ there).trans there.symm)
      · exact fun there => differ (there.trans (confined.level _ there).symm)

theorem Alters.spares (alters : Alters d after files directories) : Spares d after files where
  toKeeps := alters.toKeeps
  places place := by
    rcases alters.places place with same | ⟨path, member, changed⟩ | ⟨path, member, made⟩
    · exact .inr (.inl same)
    · exact .inl ⟨path, member, changed.leads⟩
    · exact .inr (.inr ⟨made.missing, made.there⟩)

theorem Alters.trans (first : Alters d middle files directories)
    (second : Alters middle after more further) (apart : files = [] ∨ further = []) :
    Alters d after (files ++ more) (directories ++ further) where
  toKeeps := first.toKeeps.trans second.toKeeps
  places place := by
    rcases second.places place with same | ⟨path, member, changed⟩ | ⟨path, member, made⟩
    case inl =>
      rcases first.places place with kept | ⟨path, member, changed⟩ | ⟨path, member, made⟩
      · exact .inl (same.trans kept)
      · exact .inr (.inl ⟨path, List.mem_append_left _ member, changed.kept second.toKeeps same⟩)
      · exact .inr (.inr ⟨path, List.mem_append_left _ member, made.kept second.toKeeps⟩)
    case inr.inl =>
      refine .inr (.inl ⟨path, List.mem_append_right _ member, changed.leads, ?_, changed.behind⟩)
      exact fun there => changed.before (first.directory _ there)
    case inr.inr =>
      refine .inr (.inr ⟨path, List.mem_append_right _ member, ?_, made.there, made.located⟩)
      rcases first.places place with kept | ⟨path, gone, changed⟩ | ⟨path, above, before⟩
      · exact kept.symm.trans made.missing
      · rcases apart with rfl | rfl
        · contradiction
        · contradiction
      · have there := made.missing.symm.trans before.there
        contradiction

theorem makeDirectoryAlters (made : d.makeDirectory path = .ok after) : Alters d after [] [path] := by
  obtain ⟨t, found, made⟩ := Failure.boundOk.mp made
  cases t with
  | directory place => contradiction
  | entry parent name slashed =>
    simp only at made
    split at made
    · contradiction
    rename_i short
    split at made
    · contradiction
    rename_i missing
    cases made
    have fresh : (d.set (name :: parent) .directory).get? (name :: parent) = some .directory :=
      getSet (List.cons_ne_nil _ _) _
    have keeps : Keeps d (d.set (name :: parent) .directory) := by
      refine ⟨rfl, fun place directory => ?_⟩
      rcases Decidable.em (place = name :: parent) with rfl | apart
      · exact fresh
      · rw [getSetElse d apart, directory]
    refine ⟨keeps, fun place => ?_⟩
    rcases Decidable.em (place = name :: parent) with rfl | apart
    · refine .inr (.inr ⟨path, List.mem_cons_self, missing, fresh, locatedExact.mpr ?_⟩)
      exact .below (targetKept keeps found) (eq_false_of_ne_true short) fresh fun _ => rfl
    · exact .inl (getSetElse d apart _)

theorem makeDirectoryThere (located : d.locate path = .ok (place, .directory)) :
    d.makeDirectory path = .error .alreadyExists := by
  cases locatedExact.mp located with
  | here target => simp [makeDirectory, target, bind, Except.bind]
  | below target short there _ => simp [makeDirectory, target, short, there, bind, Except.bind]

end
end TextCursor.Disk
