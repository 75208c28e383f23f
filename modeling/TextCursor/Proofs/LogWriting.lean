import TextCursor.Proofs.Confinement
import TextCursor.Proofs.Storing
import TextCursor.StepLog

/-! What the step log holds. An open log writes behind what it has written, so its file is the first
line with an entry for each event since, and no other file changes. -/
namespace TextCursor

namespace Disk

theorem overlayBehind (content bytes : ByteArray) :
    overlay content content.size bytes = content ++ bytes := by
  have rest : content.extract (content.size + bytes.size) content.size = .empty := by simp
  have gap : ByteArray.mk (Array.replicate (content.size - content.size) 0) = .empty := by
    rw [Nat.sub_self]
    rfl
  rw [overlay, ByteArray.extract_zero_size, gap, rest, ByteArray.append_empty,
    ByteArray.append_empty]

theorem putTaken {d : Disk} {place : Location} {number offset : Nat} {bytes : ByteArray}
    {fault : Fault} : d.put (.file place number) offset bytes ≠ .error fault := by
  intro refused
  rw [put] at refused
  split at refused
  · split at refused <;> contradiction
  · contradiction

end Disk

namespace Session
open Disk (Confined)

/-- The log of this path is open, and this is what was written to it. -/
inductive Logs (s : Session) (path text : String) : Prop where
  | file {parent name number} (entry : s.disk.Entry path parent name)
      (held : s.disk.get? (name :: parent) = some (.file number text.toUTF8))
      (log : s.log = some ⟨.file (name :: parent) number, text.utf8ByteSize⟩)
  | null {parent name} (entry : s.disk.Entry path parent name)
      (device : s.disk.get? (name :: parent) = some .nullDevice)
      (log : s.log = some ⟨.null, text.utf8ByteSize⟩)

section
variable {s t : Session} {path text : String}

theorem Logs.isOpen (logs : s.Logs path text) : s.log.isSome := by
  cases logs with
  | file _ _ log => rw [log]; rfl
  | null _ _ log => rw [log]; rfl

theorem Logs.carry (logs : s.Logs path text) (disk : t.disk = s.disk) (log : t.log = s.log) :
    t.Logs path text := by
  cases logs with
  | file entry held own => exact .file (disk ▸ entry) (disk ▸ held) (log.trans own)
  | null entry device own => exact .null (disk ▸ entry) (disk ▸ device) (log.trans own)

theorem Logs.holds (logs : s.Logs path text) (kept : s.log ≠ some ⟨.null, text.utf8ByteSize⟩) :
    s.disk.Holds path text.toUTF8 := by
  cases logs with
  | file entry held _ => exact ⟨_, _, Disk.locateEntry entry held⟩
  | null _ _ log => contradiction

theorem appendLogs (logs : s.Logs path text) (more : String) :
    ∃ writer later after, s.log = some writer ∧ s.append writer more = (.ok later, after) ∧
      ({ after with log := some later } : Session).Logs path (text ++ more) ∧
      Confined s.disk after.disk [path] := by
  have size : text.utf8ByteSize + more.utf8ByteSize = (text ++ more).utf8ByteSize :=
    String.utf8ByteSize_append.symm
  cases logs with
  | @file parent name number entry held log =>
    have behind : Disk.overlay text.toUTF8 text.utf8ByteSize more.toUTF8 = (text ++ more).toUTF8 :=
      (Disk.overlayBehind _ _).trans String.toByteArray_append.symm
    have put := Disk.putFile held text.utf8ByteSize more.toUTF8
    rw [behind] at put
    have file : s.disk.get? (name :: parent) ≠ some .directory := by simp [held]
    have rewritten := Disk.rewrittenSet file number (text ++ more).toUTF8
    have appended : s.append ⟨.file (name :: parent) number, text.utf8ByteSize⟩ more =
        (.ok ⟨.file (name :: parent) number, (text ++ more).utf8ByteSize⟩,
          { s with disk := s.disk.set (name :: parent) (.file number (text ++ more).toUTF8) }) := by
      simp only [append, put, size]
    refine ⟨_, _, _, log, appended, ?_, ?_⟩
    · exact .file (Disk.entryKept rewritten.keeps entry) rewritten.held rfl
    · exact Disk.confinedRewritten List.mem_cons_self ⟨_, _, entry, rfl⟩ rewritten
  | null entry device log =>
    have appended : s.append ⟨.null, text.utf8ByteSize⟩ more =
        (.ok ⟨.null, (text ++ more).utf8ByteSize⟩, s) := by
      simp only [append, Disk.put, size]
    refine ⟨_, _, _, log, appended, ?_, ?_⟩
    · exact .null entry device rfl
    · exact Disk.confinedSame _ _

end
end Session

namespace StepLog
open Disk (Confined)
open Text (alignRight milliseconds)

/-- Milliseconds with three places, in ten columns or more. -/
def Stamp (time : String) : Prop :=
  ∃ whole places, time.toList = List.replicate (6 - whole.length) ' ' ++ whole ++ '.' :: places ∧
    whole ≠ [] ∧ places.length = 3 ∧ ∀ c ∈ whole ++ places, c.isDigit

def entries (times : List String) (events : List (String × String)) : String :=
  String.join (List.zipWith
    (fun time event => "[" ++ time ++ " ms] " ++ event.1 ++ ": " ++ event.2 ++ "\n") times events)

def walkEvents (text : String) : List (String × String) :=
  (Step.ofText text).map fun s => ("walk.step", s.row)

def recordAll (events : List (String × String)) : StateM Session Unit :=
  events.forM fun event => record event.1 event.2

theorem entriesCons (time : String) (times : List String) (event : String × String)
    (events : List (String × String)) :
    entries (time :: times) (event :: events) =
      "[" ++ time ++ " ms] " ++ event.1 ++ ": " ++ event.2 ++ "\n" ++ entries times events := by
  simp [entries]

theorem entriesAppend {times more : List String} {events later : List (String × String)}
    (same : times.length = events.length) :
    entries (times ++ more) (events ++ later) = entries times events ++ entries more later := by
  rw [entries, List.zipWith_append same, String.join_append]
  rfl

theorem stampedAge (age : Nat) : Stamp (alignRight 10 (milliseconds 3 age)) := by
  have digits (n : Nat) : ∀ c ∈ Nat.toDigits 10 n, c.isDigit := fun c =>
    Nat.isDigit_of_mem_toDigits (by decide) (by decide)
  let count := (age + Nat.pow 10 3 / 2) / Nat.pow 10 3
  let whole := Nat.toDigits 10 (count / 1000)
  let places := (Nat.toDigits 10 (count % 1000)).leftpad 3 '0'
  have small : (Nat.toDigits 10 (count % 1000)).length ≤ 3 :=
    (Nat.length_toDigits_le_iff (by decide) (by decide)).mpr (Nat.mod_lt _ (by decide))
  have three : places.length = 3 := by rw [List.length_leftpad, Nat.max_eq_left small]
  have text : (milliseconds 3 age).toList = whole ++ '.' :: places := by
    simp [milliseconds, whole, places, count]
  have width : 10 - (whole ++ '.' :: places).length = 6 - whole.length := by
    rw [List.length_append, List.length_cons, three]
    omega
  refine ⟨whole, places, ?_, Nat.toDigits_ne_nil, three, ?_⟩
  · rw [alignRight, text, String.toList_ofList, List.leftpad, width, List.append_assoc]
  · intro c member
    rcases List.mem_append.mp member with inside | inside
    · exact digits _ c inside
    rcases List.mem_append.mp inside with zero | inside
    · rw [List.eq_of_mem_replicate zero]
      rfl
    · exact digits _ c inside

theorem recordDoes (s : Session) (name detail : String) :
    s.does (record name detail) =
      match s.log with
      | none => ((), s.readClock.2)
      | some writer =>
          match s.readClock.2.append writer (entry s.readClock.1 name detail) with
          | (.error _, after) => ((), after)
          | (.ok later, after) => ((), { after with log := some later }) := by
  rw [record, Session.doesBind, Session.doesLogAge, Session.doesBind, Session.doesLog]
  have still : s.readClock.2.log = s.log := rfl
  rw [still]
  cases s.log with
  | none => rfl
  | some writer =>
    simp only [Session.doesBind, Session.doesAppend]
    generalize s.readClock.2.append writer (entry s.readClock.1 name detail) = appended
    obtain ⟨result, after⟩ := appended
    cases result <;> rfl

section
variable {s : Session} {path text : String}

theorem recordClosed (closed : s.log = none) (name detail : String) :
    s.does (record name detail) = ((), s.readClock.2) := by
  rw [recordDoes, closed]

theorem recordLogs (logs : s.Logs path text) (name detail : String) :
    ∃ time, Stamp time ∧
      (s.does (record name detail)).2.Logs path
        (text ++ ("[" ++ time ++ " ms] " ++ name ++ ": " ++ detail ++ "\n")) ∧
      Confined s.disk (s.does (record name detail)).2.disk [path] := by
  have carried : s.readClock.2.Logs path text := logs.carry rfl rfl
  obtain ⟨writer, later, after, own, appended, further, confined⟩ :=
    Session.appendLogs carried (entry s.readClock.1 name detail)
  have log : s.log = some writer := own
  simp only [recordDoes, log, appended]
  exact ⟨_, stampedAge _, further, confined⟩

theorem recordAllNil (s : Session) : s.does (recordAll []) = ((), s) := rfl

theorem recordAllCons (s : Session) (event : String × String) (events : List (String × String)) :
    s.does (recordAll (event :: events)) =
      (s.does (record event.1 event.2)).2.does (recordAll events) := rfl

theorem recordsLogs (logs : s.Logs path text) (events : List (String × String)) :
    ∃ times, times.length = events.length ∧ (∀ time ∈ times, Stamp time) ∧
      (s.does (recordAll events)).2.Logs path (text ++ entries times events) ∧
      Confined s.disk (s.does (recordAll events)).2.disk [path] := by
  induction events generalizing s text with
  | nil =>
    have nothing : text ++ entries [] [] = text := by simp [entries]
    refine ⟨[], rfl, List.forall_mem_nil _, ?_, Disk.confinedSame _ _⟩
    rwa [recordAllNil, nothing]
  | cons event events ih =>
    obtain ⟨time, stamp, logs, first⟩ := recordLogs logs event.1 event.2
    obtain ⟨times, same, stamps, logs, further⟩ := ih logs
    refine ⟨time :: times, by simp [same], List.forall_mem_cons.mpr ⟨stamp, stamps⟩, ?_,
      first.trans further⟩
    rwa [recordAllCons, entriesCons, ← String.append_assoc]

theorem recordsClosed (closed : s.log = none) (events : List (String × String)) :
    (s.does (recordAll events)).2.log = none ∧ (s.does (recordAll events)).2.disk = s.disk := by
  induction events generalizing s with
  | nil => exact ⟨closed, rfl⟩
  | cons event events ih =>
    rw [recordAllCons, recordClosed closed]
    exact ih (s := s.readClock.2) closed

theorem traceSteps (s : Session) (text : String) : (s.does (trace text)).1 = Step.ofText text := by
  rw [trace, Session.doesBind, Session.doesLog]
  cases s.log.isSome <;> rfl

theorem traceRecords (s : Session) (text : String) :
    (s.does (trace text)).2 =
      if s.log.isSome then (s.does (recordAll (walkEvents text))).2 else s := by
  rw [trace, Session.doesBind, Session.doesLog]
  cases s.log.isSome with
  | false => rfl
  | true =>
    have same : recordAll (walkEvents text) =
        (Step.ofText text).forM fun step => record stepEvent step.row := by
      rw [recordAll, walkEvents, List.forM_eq_forM, List.forM_map]
      rfl
    rw [same]
    rfl

theorem directDoes (s : Session) (path : String) :
    s.does (direct (some path)) =
      match s.disk.create path with
      | .error fault => (.error fault, { s with log := none })
      | .ok (disk, sink) =>
          match disk.put sink 0 firstLine.toUTF8 with
          | .error fault => (.error fault, { s with disk, log := none })
          | .ok disk => (.ok (), { s with disk, log := some ⟨sink, firstLine.utf8ByteSize⟩ }) := by
  simp only [direct, Session.doesBind, Session.doesSetLog, Session.doesCreate, Session.create]
  cases s.disk.create path with
  | error fault => rfl
  | ok created =>
    obtain ⟨disk, sink⟩ := created
    simp only [Session.doesBind, Session.doesAppend, Session.append, Nat.zero_add]
    cases disk.put sink 0 firstLine.toUTF8 <;> rfl

theorem directedLogs (opened : (s.does (direct (some path))).1 = .ok ()) :
    (s.does (direct (some path))).2.Logs path firstLine ∧
      Confined s.disk (s.does (direct (some path))).2.disk [path] := by
  rw [directDoes] at opened ⊢
  split at opened
  · contradiction
  rename_i middle sink made
  have created := Disk.createSource made
  split at opened
  · contradiction
  rename_i disk put
  cases sink with
  | file place number =>
    obtain ⟨parent, name, entry, rfl, fresh⟩ := Disk.createdFresh created
    have rewritten := Disk.putRewritten fresh put
    exact ⟨.file (Disk.entryKept rewritten.keeps entry) rewritten.held rfl,
      Disk.confinedRewritten List.mem_cons_self ⟨_, _, entry, rfl⟩ rewritten⟩
  | null =>
    cases created with
    | null entry device =>
      cases put
      exact ⟨.null entry device rfl, Disk.confinedSame _ _⟩
  | full => contradiction

/- Only a full device can be opened and then refuse the first line. -/
theorem directedFails {fault : Fault} (failed : (s.does (direct (some path))).1 = .error fault) :
    (s.does (direct (some path))).2.log = none ∧ (s.does (direct (some path))).2.disk = s.disk := by
  rw [directDoes] at failed ⊢
  split at failed
  · exact ⟨rfl, rfl⟩
  rename_i middle sink made
  split at failed
  · rename_i put
    cases Disk.createSource made with
    | made => exact absurd put Disk.putTaken
    | emptied => exact absurd put Disk.putTaken
    | null => contradiction
    | full => exact ⟨rfl, rfl⟩
  · contradiction

def WritesAmong (s : Session) (paths : List String) : Prop :=
  s.log = none ∨ ∃ path ∈ paths, ∃ text, s.Logs path text

theorem WritesAmong.carry {t : Session} {paths : List String} (among : WritesAmong s paths)
    (disk : t.disk = s.disk) (log : t.log = s.log) : WritesAmong t paths := by
  rcases among with closed | ⟨path, member, text, logs⟩
  · exact .inl (log.trans closed)
  · exact .inr ⟨path, member, text, logs.carry disk log⟩

theorem directedAmong (s : Session) (path? : Option String) :
    Confined s.disk (s.does (direct path?)).2.disk path?.toList ∧
      WritesAmong (s.does (direct path?)).2 path?.toList := by
  cases path? with
  | none => exact ⟨Disk.confinedSame _ _, .inl rfl⟩
  | some path =>
    cases result : (s.does (direct (some path))).1 with
    | ok =>
      obtain ⟨logs, confined⟩ := directedLogs result
      exact ⟨confined, .inr ⟨path, List.mem_cons_self, _, logs⟩⟩
    | error fault =>
      obtain ⟨shut, same⟩ := directedFails result
      rw [same]
      exact ⟨Disk.confinedSame _ _, .inl shut⟩

theorem traceConfined {paths : List String} (among : WritesAmong s paths) (text : String) :
    Confined s.disk (s.does (trace text)).2.disk paths := by
  rw [traceRecords]
  split
  · rename_i isOpen
    rcases among with closed | ⟨path, member, before, logs⟩
    · rw [closed] at isOpen
      contradiction
    · obtain ⟨_, _, _, _, confined⟩ := recordsLogs logs (walkEvents text)
      exact confined.widen (List.cons_subset.mpr ⟨member, List.nil_subset _⟩)
  · exact Disk.confinedSame _ _

end
end StepLog
end TextCursor
