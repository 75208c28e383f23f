import TextCursor.Proofs.Files

/-! What an operation leaves as it was. It may change the file that a path leads to and make
directories; directories are never lost, so a path that leads somewhere leads there to the end,
and what it names can only change at the place where it ends. -/
namespace TextCursor.Disk

def Leads (d : Disk) (path : String) (place : Location) : Prop :=
  ∃ parent name, d.Entry path parent name ∧ place = name :: parent

/-- Both paths name one file, or would make it. -/
def SameFile (d : Disk) (path other : String) : Prop :=
  ∃ place, d.Leads path place ∧ d.Leads other place

/-- Only directories are new, and all else is as it was but what one of the paths leads to. -/
structure Spares (d after : Disk) (paths : List String) : Prop extends Keeps d after where
  places : ∀ place, (∃ path ∈ paths, after.Leads path place) ∨ after.get? place = d.get? place ∨
    d.get? place = none ∧ after.get? place = some .directory

structure Confined (d after : Disk) (paths : List String) : Prop extends Spares d after paths where
  level : ∀ place, after.get? place = some .directory → d.get? place = some .directory

section
variable {d middle after : Disk} {path : String} {paths more : List String} {place : Location}

theorem Keeps.trans (first : Keeps d middle) (second : Keeps middle after) : Keeps d after where
  working := second.working.trans first.working
  directory place directory := second.directory place (first.directory place directory)

theorem Keeps.leads (keeps : Keeps d after) (leads : d.Leads path place) : after.Leads path place := by
  obtain ⟨parent, name, entry, rfl⟩ := leads
  exact ⟨parent, name, entryKept keeps entry, rfl⟩

theorem leadsOnce {other : Location} (leads : d.Leads path place) (again : d.Leads path other) :
    place = other := by
  obtain ⟨parent, name, entry, rfl⟩ := leads
  obtain ⟨parent', name', entry', rfl⟩ := again
  cases entry.target.symm.trans entry'.target
  rfl

theorem sparedSame (d : Disk) (paths : List String) : Spares d d paths where
  working := rfl
  directory _ directory := directory
  places _ := .inr (.inl rfl)

theorem confinedSame (d : Disk) (paths : List String) : Confined d d paths where
  toSpares := sparedSame d paths
  level _ directory := directory

theorem Spares.widen (spares : Spares d after paths) (within : paths ⊆ more) :
    Spares d after more where
  toKeeps := spares.toKeeps
  places place := by
    rcases spares.places place with ⟨path, member, leads⟩ | rest
    · exact .inl ⟨path, within member, leads⟩
    · exact .inr rest

theorem Spares.trans (first : Spares d middle paths) (second : Spares middle after paths) :
    Spares d after paths where
  toKeeps := first.toKeeps.trans second.toKeeps
  places place := by
    rcases second.places place with leads | same | ⟨missing, made⟩
    · exact .inl leads
    · rcases first.places place with ⟨path, member, leads⟩ | kept | ⟨missing, made⟩
      · exact .inl ⟨path, member, second.toKeeps.leads leads⟩
      · exact .inr (.inl (same.trans kept))
      · exact .inr (.inr ⟨missing, same.trans made⟩)
    · rcases first.places place with ⟨path, member, leads⟩ | kept | ⟨_, directory⟩
      · exact .inl ⟨path, member, second.toKeeps.leads leads⟩
      · exact .inr (.inr ⟨kept.symm.trans missing, made⟩)
      · rw [missing] at directory
        contradiction

theorem Spares.still (spares : Spares d after paths) (apart : ∀ path ∈ paths, ¬after.Leads path place)
    {node : Node} (there : d.get? place = some node) : after.get? place = some node := by
  rcases spares.places place with ⟨path, member, leads⟩ | same | ⟨missing, _⟩
  · exact absurd leads (apart path member)
  · exact same.trans there
  · rw [there] at missing
    contradiction

theorem Confined.trans (first : Confined d middle paths) (second : Confined middle after paths) :
    Confined d after paths where
  toSpares := first.toSpares.trans second.toSpares
  level place directory := first.level place (second.level place directory)

theorem Confined.widen (confined : Confined d after paths) (within : paths ⊆ more) :
    Confined d after more where
  toSpares := confined.toSpares.widen within
  level := confined.level

theorem Confined.back (confined : Confined d after paths) : Keeps after d where
  working := confined.working.symm
  directory := confined.level

theorem Confined.elsewhere (confined : Confined d after paths) (place : Location) :
    (∃ path ∈ paths, d.Leads path place) ∨ after.get? place = d.get? place := by
  rcases confined.places place with ⟨path, member, leads⟩ | same | ⟨missing, made⟩
  · exact .inl ⟨path, member, confined.back.leads leads⟩
  · exact .inr same
  · rw [confined.level place made] at missing
    contradiction

theorem confinedElse (keeps : Keeps d after) (member : path ∈ paths) (leads : d.Leads path place)
    (file : after.get? place ≠ some .directory)
    (others : ∀ other, other ≠ place → after.get? other = d.get? other) :
    Confined d after paths where
  toKeeps := keeps
  places other := by
    rcases Decidable.em (other = place) with rfl | apart
    · exact .inl ⟨path, member, keeps.leads leads⟩
    · exact .inr (.inl (others other apart))
  level other directory := by
    have apart : other ≠ place := by
      rintro rfl
      exact file directory
    rwa [← others other apart]

theorem confinedRewritten {number : Nat} {content : ByteArray} (member : path ∈ paths)
    (leads : d.Leads path place) (rewritten : Rewritten d after place number content) :
    Confined d after paths :=
  confinedElse rewritten.keeps member leads (by simp [rewritten.held]) rewritten.others

end

section
variable {d after : Disk} {path : String}

theorem createdFresh {place : Location} {number : Nat} (created : Created d path after (.file place number)) :
    ∃ parent name, d.Entry path parent name ∧ place = name :: parent ∧
      Rewritten d after place number .empty := by
  cases created with
  | @made parent name entry missing =>
    have free : d.get? (name :: parent) ≠ some .directory := by simp [missing]
    exact ⟨parent, name, entry, rfl, rewrittenRenumbered (rewrittenSet free _ _) _⟩
  | @emptied parent name number content entry old =>
    have free : d.get? (name :: parent) ≠ some .directory := by simp [old]
    exact ⟨parent, name, entry, rfl, rewrittenSet free _ _⟩

theorem writeConfined {bytes : ByteArray} (written : d.write path bytes = .ok after) :
    Confined d after [path] := by
  cases writeSource written with
  | file entry rewritten => exact confinedRewritten List.mem_cons_self ⟨_, _, entry, rfl⟩ rewritten
  | device entry same =>
    rw [same]
    exact confinedSame d _

theorem getErase (d : Disk) {place : Location} (inner : place ≠ []) :
    (d.erase place).get? place = none := by
  rw [get?, if_neg inner, erase]
  induction d.nodes with
  | nil => rfl
  | cons entry nodes ih =>
    rw [List.filter_cons]
    split
    · rename_i kept
      have apart : (place == entry.1) = false := by
        rw [beq_eq_false_iff_ne]
        rintro rfl
        simp at kept
      rw [List.lookup_cons, apart]
      exact ih
    · exact ih

theorem getEraseElse (d : Disk) {place other : Location} (apart : other ≠ place) :
    (d.erase place).get? other = d.get? other := by
  rw [get?, get?, erase, lookupFilter d.nodes apart]

theorem removeSource (removed : d.remove path = .ok after) :
    ∃ parent name node, d.Entry path parent name ∧ d.get? (name :: parent) = some node ∧
      node ≠ .directory ∧ after = d.erase (name :: parent) := by
  obtain ⟨t, found, removed⟩ := Failure.boundOk.mp removed
  cases t with
  | directory place => contradiction
  | entry parent name slashed =>
    simp only at removed
    split at removed
    · contradiction
    rename_i short
    split at removed
    · contradiction
    · contradiction
    · rename_i node file there
      split at removed
      · contradiction
      rename_i plain
      cases removed
      refine ⟨parent, name, node, ⟨?_, eq_false_of_ne_true short⟩, there, ?_, rfl⟩
      · rw [found, eq_false_of_ne_true plain]
      · rintro rfl
        exact file rfl

theorem removeConfined (removed : d.remove path = .ok after) : Confined d after [path] := by
  obtain ⟨parent, name, node, entry, there, file, rfl⟩ := removeSource removed
  have inner : name :: parent ≠ [] := List.cons_ne_nil _ _
  have keeps : Keeps d (d.erase (name :: parent)) := by
    refine ⟨rfl, fun other directory => ?_⟩
    have apart : other ≠ name :: parent := by
      rintro rfl
      exact file (Option.some.inj (there.symm.trans directory))
    rw [getEraseElse d apart, directory]
  refine confinedElse keeps List.mem_cons_self ⟨_, _, entry, rfl⟩ ?_ fun _ => getEraseElse d
  simp [getErase d inner]

end

def found? (d : Disk) (path : String) : Option Node :=
  match d.locate path with
  | .ok (_, node) => some node
  | .error _ => none

def NamesDevice (d : Disk) (path : String) : Prop :=
  ∃ node, d.found? path = some node ∧ (node = .nullDevice ∨ node = .fullDevice)

inductive Located (d : Disk) (path : String) : Location → Node → Prop where
  | here {place} (target : d.target path = .ok (.directory place)) : Located d path place .directory
  | below {parent name slashed node} (target : d.target path = .ok (.entry parent name slashed))
      (short : isTooLong name = false) (there : d.get? (name :: parent) = some node)
      (fits : slashed → node = .directory) : Located d path (name :: parent) node

section
variable {d after : Disk} {path : String} {place : Location} {paths : List String} {node : Node}

theorem foundLocated (located : d.locate path = .ok (place, node)) : d.found? path = some node := by
  rw [found?, located]

theorem locatedExact : d.locate path = .ok (place, node) ↔ d.Located path place node := by
  constructor
  · intro located
    obtain ⟨t, target, located⟩ := Failure.boundOk.mp located
    cases t with
    | directory place' =>
      cases located
      exact .here target
    | entry parent name slashed =>
      simp only at located
      split at located
      · contradiction
      rename_i short
      split at located
      · contradiction
      · rename_i there
        cases located
        exact .below target (eq_false_of_ne_true short) there fun _ => rfl
      · rename_i there
        split at located
        · contradiction
        rename_i plain
        cases located
        exact .below target (eq_false_of_ne_true short) there (absurd · plain)
  · intro located
    cases located with
    | here target => simp [locate, target, bind, Except.bind]
    | @below parent name slashed node target short there fits =>
      cases slashed with
      | false => cases node <;> simp [locate, target, short, there, bind, Except.bind]
      | true =>
        cases fits rfl
        simp [locate, target, short, there, bind, Except.bind]

theorem foundExact : d.found? path = some node ↔ ∃ place, d.Located path place node := by
  rw [found?]
  constructor
  · intro found
    split at found
    · rename_i place own located
      cases Option.some.inj found
      exact ⟨place, locatedExact.mp located⟩
    · contradiction
  · intro named
    obtain ⟨place, located⟩ := named
    rw [locatedExact.mpr located]

theorem locatedKept (keeps : Keeps d after) (located : d.Located path place .directory) :
    after.Located path place .directory := by
  cases located with
  | here target => exact .here (targetKept keeps target)
  | below target short there fits =>
    exact .below (targetKept keeps target) short (keeps.directory _ there) fits

theorem Confined.flip (confined : Confined d after paths) : Confined after d paths where
  toKeeps := confined.back
  places place := by
    rcases confined.elsewhere place with leads | same
    · exact .inl leads
    · exact .inr (.inl same.symm)
  level := confined.directory

theorem locatedStill (confined : Confined d after paths)
    (apart : ∀ other ∈ paths, ¬d.SameFile other path ∨ d.found? path = some .directory)
    (located : d.Located path place node) : after.Located path place node := by
  cases located with
  | here target => exact .here (targetKept confined.toKeeps target)
  | @below parent name slashed node target short there fits =>
    refine .below (targetKept confined.toKeeps target) short ?_ fits
    rcases confined.elsewhere (name :: parent) with ⟨other, member, leads⟩ | same
    · have directory : node = .directory := by
        cases slashed with
        | true => exact fits rfl
        | false =>
          rcases apart other member with other | directory
          · exact absurd ⟨_, leads, _, _, ⟨target, short⟩, rfl⟩ other
          · rw [foundExact.mpr ⟨_, .below target short there fits⟩] at directory
            exact Option.some.inj directory
      rw [directory] at there ⊢
      exact confined.directory _ there
    · exact same.trans there

theorem foundStill (confined : Confined d after paths)
    (apart : ∀ other ∈ paths, ¬d.SameFile other path ∨ d.found? path = some .directory) :
    after.found? path = d.found? path := by
  refine Option.ext fun node => ?_
  rw [foundExact, foundExact]
  refine ⟨fun ⟨place, located⟩ => ⟨place, locatedStill confined.flip (fun other member => ?_) located⟩,
    fun ⟨place, located⟩ => ⟨place, locatedStill confined apart located⟩⟩
  rcases apart other member with apart | directory
  · refine .inl fun ⟨place, leads, own⟩ => ?_
    exact apart ⟨place, confined.back.leads leads, confined.back.leads own⟩
  · obtain ⟨place, located⟩ := foundExact.mp directory
    exact .inr (foundExact.mpr ⟨place, locatedStill confined apart located⟩)

theorem presentFound (d : Disk) (path : String) : d.present path = (d.found? path).isSome := by
  rw [present, found?]
  cases d.locate path <;> rfl

theorem locateFound (found : d.found? path = some node) :
    ∃ place, d.locate path = .ok (place, node) := by
  obtain ⟨place, located⟩ := foundExact.mp found
  exact ⟨place, locatedExact.mpr located⟩

theorem readSame (same : after.found? path = d.found? path) (present : d.present path) :
    after.read path = d.read path := by
  rw [presentFound] at present
  obtain ⟨node, found⟩ := Option.isSome_iff_exists.mp present
  obtain ⟨place, located⟩ := locateFound found
  obtain ⟨place', located'⟩ := locateFound (same.trans found)
  rw [read, read, located, located']
  cases node <;> rfl

theorem holdsPlace {content : ByteArray} (held : d.Holds path content) :
    ∃ place number, d.Leads path place ∧ d.get? place = some (.file number content) := by
  obtain ⟨place, number, located⟩ := held
  cases locatedExact.mp located with
  | @below parent name slashed node target short there fits =>
    cases slashed with
    | true => cases fits rfl
    | false => exact ⟨_, number, ⟨parent, name, ⟨target, short⟩, rfl⟩, there⟩

theorem placeHolds {place : Location} {number : Nat} {content : ByteArray} (leads : d.Leads path place)
    (there : d.get? place = some (.file number content)) : d.Holds path content := by
  obtain ⟨parent, name, entry, rfl⟩ := leads
  exact ⟨_, number, locateEntry entry there⟩

theorem stillHolds {content : ByteArray} (spares : Spares d after paths)
    (apart : ∀ other ∈ paths, ¬after.SameFile other path) (held : d.Holds path content) :
    after.Holds path content := by
  obtain ⟨place, number, leads, there⟩ := holdsPlace held
  have kept : after.Leads path place := spares.toKeeps.leads leads
  have still : after.get? place = some (.file number content) :=
    spares.still (fun other member leads => apart other member ⟨place, leads, kept⟩) there
  exact placeHolds kept still

end
end TextCursor.Disk
