import TextCursor.Disk
import TextCursor.Proofs.Reading

/-! A file that was written is found again under the same path, with what was written: the one
node that changes was no directory, so every path leads where it led before. -/
namespace TextCursor.Disk

/-- The path names a regular file with this content. -/
def Holds (d : Disk) (path : String) (content : ByteArray) : Prop :=
  ∃ place number, d.locate path = .ok (place, .file number content)

theorem heldPresent {d : Disk} {path : String} {content : ByteArray} (held : d.Holds path content) :
    d.present path = true := by
  obtain ⟨place, number, located⟩ := held
  rw [present, located]
  rfl

theorem heldRead {d : Disk} {path : String} {content : ByteArray} (held : d.Holds path content) :
    d.read path = .ok content := by
  obtain ⟨place, number, located⟩ := held
  rw [read, located]
  rfl

theorem getSet {d : Disk} {place : Location} (inner : place ≠ []) (node : Node) :
    (d.set place node).get? place = some node := by
  rw [get?, if_neg inner, set, List.lookup_cons_self]

theorem lookupFilter (nodes : List (Location × Node)) {place other : Location} (apart : other ≠ place) :
    (nodes.filter fun entry => entry.1 != place).lookup other = nodes.lookup other := by
  induction nodes with
  | nil => rfl
  | cons entry nodes ih =>
    rcases entry with ⟨own, node⟩
    cases here : other == own with
    | false =>
      rw [List.lookup_cons, here, List.filter_cons]
      split
      · rw [List.lookup_cons, here]
        exact ih
      · exact ih
    | true =>
      have kept : own ≠ place := eq_of_beq here ▸ apart
      rw [List.filter_cons_of_pos (by simpa using kept), List.lookup_cons, List.lookup_cons, here]

theorem getSetElse (d : Disk) {place other : Location} (apart : other ≠ place) (node : Node) :
    (d.set place node).get? other = d.get? other := by
  have passed : (other == place) = false := beq_false_of_ne apart
  simp only [get?, set, List.lookup_cons, passed, lookupFilter d.nodes apart]

structure Keeps (d after : Disk) : Prop where
  working : after.working = d.working
  directory : ∀ place, d.get? place = some .directory → after.get? place = some .directory

structure Rewritten (d after : Disk) (place : Location) (number : Nat) (content : ByteArray) : Prop where
  working : after.working = d.working
  free : d.get? place ≠ some .directory
  held : after.get? place = some (.file number content)
  others : ∀ other, other ≠ place → after.get? other = d.get? other

theorem rewrittenSet {d : Disk} {place : Location} (free : d.get? place ≠ some .directory)
    (number : Nat) (content : ByteArray) :
    Rewritten d (d.set place (.file number content)) place number content where
  working := rfl
  free := free
  held := by
    refine getSet ?_ _
    rintro rfl
    exact free rfl
  others other apart := getSetElse d apart _

theorem rewrittenRenumbered {d after : Disk} {place : Location} {number : Nat} {content : ByteArray}
    (rewritten : Rewritten d after place number content) (next : Nat) :
    Rewritten d { after with nextNumber := next } place number content :=
  ⟨rewritten.working, rewritten.free, rewritten.held, rewritten.others⟩

theorem Rewritten.keeps {d after : Disk} {place : Location} {number : Nat} {content : ByteArray}
    (rewritten : Rewritten d after place number content) : Keeps d after where
  working := rewritten.working
  directory other directory := by
    have apart : other ≠ place := by
      rintro rfl
      exact rewritten.free directory
    rw [rewritten.others other apart, directory]

theorem Rewritten.again {d middle after : Disk} {place : Location} {number number' : Nat}
    {content content' : ByteArray} (first : Rewritten d middle place number content)
    (second : Rewritten middle after place number' content') :
    Rewritten d after place number' content' where
  working := second.working.trans first.working
  free := first.free
  held := second.held
  others other apart := (second.others other apart).trans (first.others other apart)

theorem walkKept {d after : Disk} (keeps : Keeps d after) {here there : Location}
    {names : List String} (walked : d.walkInto here names = .ok there) :
    after.walkInto here names = .ok there := by
  fun_induction walkInto d here names with
  | case1 here => exact walked
  | case2 here rest ih => rw [walkInto, if_pos rfl, ih walked]
  | case3 here rest _ ih => simpa [walkInto] using ih walked
  | case4 here name rest dot dots long => contradiction
  | case5 here name rest dot dots short missing => contradiction
  | case6 here name rest dot dots short found ih =>
    simp [walkInto, dot, dots, short, keeps.directory _ found, ih walked]
  | case7 here name rest dot dots short node found other => contradiction

theorem targetKept {d after : Disk} (keeps : Keeps d after) {path : String} {t : Target}
    (found : d.target path = .ok t) : after.target path = .ok t := by
  simp only [target, keeps.working] at found ⊢
  split at found
  · contradiction
  rename_i plain
  split at found
  · contradiction
  rename_i some
  split at found
  · contradiction
  rename_i short
  rw [if_neg plain, if_neg some, if_neg short]
  cases last : (names path).reverse with
  | nil =>
    rw [last] at found
    exact found
  | cons name before =>
    rw [last] at found
    simp only at found ⊢
    generalize (if path.toList.head? = Option.some '/' then [] else d.working) = start at found ⊢
    cases walked : d.walkInto start before.reverse with
    | error fault =>
      rw [walked] at found
      contradiction
    | ok parent =>
      rw [walked] at found
      rw [walkKept keeps walked]
      exact found

structure Entry (d : Disk) (path : String) (parent : Location) (name : String) : Prop where
  target : d.target path = .ok (.entry parent name false)
  short : isTooLong name = false

section
variable {d after : Disk} {path : String} {parent : Location} {name : String}

theorem entryKept (keeps : Keeps d after) (entry : d.Entry path parent name) :
    after.Entry path parent name :=
  ⟨targetKept keeps entry.target, entry.short⟩

theorem locateEntry (entry : d.Entry path parent name) {node : Node}
    (there : d.get? (name :: parent) = some node) : d.locate path = .ok (name :: parent, node) := by
  simp only [locate, entry.target, bind, Except.bind, entry.short, there]
  cases node <;> rfl

end

inductive Created (d : Disk) (path : String) : Disk → Sink → Prop where
  | made {parent name} (entry : d.Entry path parent name) (missing : d.get? (name :: parent) = none) :
      Created d path
        { d.set (name :: parent) (.file d.nextNumber .empty) with nextNumber := d.nextNumber + 1 }
        (.file (name :: parent) d.nextNumber)
  | emptied {parent name number content} (entry : d.Entry path parent name)
      (old : d.get? (name :: parent) = some (.file number content)) :
      Created d path (d.set (name :: parent) (.file number .empty)) (.file (name :: parent) number)
  | null {parent name} (entry : d.Entry path parent name)
      (device : d.get? (name :: parent) = some .nullDevice) : Created d path d .null
  | full {parent name} (entry : d.Entry path parent name)
      (device : d.get? (name :: parent) = some .fullDevice) : Created d path d .full

theorem createSource {d after : Disk} {path : String} {sink : Sink}
    (opened : d.create path = .ok (after, sink)) : Created d path after sink := by
  obtain ⟨t, found, opened⟩ := Failure.boundOk.mp opened
  cases t with
  | directory place => contradiction
  | entry parent name slashed =>
    simp only at opened
    split at opened
    · contradiction
    rename_i plain
    split at opened
    · contradiction
    rename_i short
    have entry : d.Entry path parent name := by
      refine ⟨?_, eq_false_of_ne_true short⟩
      rw [found, eq_false_of_ne_true plain]
    split at opened
    · rename_i missing
      cases opened
      exact .made entry missing
    · contradiction
    · rename_i old
      cases opened
      exact .emptied entry old
    · rename_i device
      cases opened
      exact .null entry device
    · rename_i device
      cases opened
      exact .full entry device

theorem overlayFresh (bytes : ByteArray) : overlay .empty 0 bytes = bytes := by
  have rest : ByteArray.empty.extract (0 + bytes.size) ByteArray.empty.size = .empty :=
    ByteArray.extract_eq_empty_iff.mpr (Nat.le_trans (Nat.min_le_left ..) (Nat.zero_le _))
  have front : ByteArray.empty.extract 0 0 ++ ⟨Array.replicate (0 - ByteArray.empty.size) 0⟩ =
      ByteArray.empty := rfl
  rw [overlay, rest, front, ByteArray.empty_append, ByteArray.append_empty]

theorem putFile {d : Disk} {place : Location} {number : Nat} {content : ByteArray}
    (there : d.get? place = some (.file number content)) (offset : Nat) (bytes : ByteArray) :
    d.put (.file place number) offset bytes =
      .ok (d.set place (.file number (overlay content offset bytes))) := by
  rw [put, there]
  exact if_pos rfl

theorem putRewritten {d opened after : Disk} {place : Location} {number : Nat} {bytes : ByteArray}
    (fresh : Rewritten d opened place number .empty)
    (put : opened.put (.file place number) 0 bytes = .ok after) :
    Rewritten d after place number bytes := by
  have file : opened.get? place ≠ some .directory := by
    rw [fresh.held]
    simp
  rw [putFile fresh.held, overlayFresh] at put
  cases put
  exact fresh.again (rewrittenSet file number bytes)

inductive Written (d : Disk) (path : String) (bytes : ByteArray) (after : Disk) : Prop where
  | file {parent name number} (entry : d.Entry path parent name)
      (rewritten : Rewritten d after (name :: parent) number bytes)
  | device {parent name node} (entry : d.Entry path parent name) (same : after = d)
      (there : d.get? (name :: parent) = some node) (device : node = .nullDevice ∨ node = .fullDevice)

theorem writeSource {d after : Disk} {path : String} {bytes : ByteArray}
    (written : d.write path bytes = .ok after) : Written d path bytes after := by
  obtain ⟨⟨opened, sink⟩, created, put⟩ := Failure.boundOk.mp written
  cases createSource created with
  | @made parent name entry missing =>
    have free : d.get? (name :: parent) ≠ some .directory := by simp [missing]
    have fresh := rewrittenRenumbered (rewrittenSet free d.nextNumber .empty) (d.nextNumber + 1)
    exact .file entry (putRewritten fresh put)
  | emptied entry old => exact .file entry (putRewritten (rewrittenSet (by simp [old]) _ _) put)
  | null entry device =>
    cases put
    exact .device entry rfl device (.inl rfl)
  | full entry device =>
    simp only [Disk.put] at put
    split at put
    · cases put
      exact .device entry rfl device (.inr rfl)
    · contradiction

/- A device takes what is written as well, so the path has to name a file afterwards. -/
theorem writtenHolds {d after : Disk} {path : String} {bytes content : ByteArray}
    (written : d.write path bytes = .ok after) (file : after.Holds path content) :
    content = bytes := by
  obtain ⟨place, number, located⟩ := file
  cases writeSource written with
  | file entry rewritten =>
    rw [locateEntry (entryKept rewritten.keeps entry) rewritten.held] at located
    cases located
    rfl
  | device entry same there device =>
    rw [same, locateEntry entry there] at located
    rcases device with rfl | rfl
    · cases located
    · cases located

end TextCursor.Disk
