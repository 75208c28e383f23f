import TextCursor.Proofs.LogWriting
import TextCursor.Proofs.StepTable

/-! The step log over any number of calls. What is open, and what its file holds, is told by the last
call that directed the log and by the events since; no call loses, repeats or moves an event. -/
namespace TextCursor
open Disk (Confined)
open StepLog (Stamp entries firstLine walkEvents)

inductive LogCall where
  | direct (path : Option String)
  | event (name detail : String)
  | trace (text : String)
  deriving DecidableEq, Repr

namespace LogCall

def perform : LogCall → StateM Session (Except Fault Unit)
  | .direct path => StepLog.direct path
  | .event name detail => do
      StepLog.record name detail
      return .ok ()
  | .trace text => do
      let _ ← StepLog.trace text
      return .ok ()

def directs : LogCall → Bool
  | .direct _ => true
  | _ => false

def events : LogCall → List (String × String)
  | .direct _ => []
  | .event name detail => [(name, detail)]
  | .trace text => (Step.ofText text).map fun s => ("walk.step", s.row)

end LogCall

namespace Session

def after (s : Session) (calls : List LogCall) : Session :=
  calls.foldl (fun s call => (s.does call.perform).2) s

theorem afterCons (s : Session) (call : LogCall) (calls : List LogCall) :
    s.after (call :: calls) = (s.does call.perform).2.after calls := rfl

theorem afterAppend (s : Session) (first later : List LogCall) :
    s.after (first ++ later) = (s.after first).after later := List.foldl_append ..

/-- A call that opened the log at this path, and then the later ones. -/
def Opened (s : Session) (calls : List LogCall) (path : String) (later : List LogCall) : Prop :=
  ∃ before, calls = before ++ .direct (some path) :: later ∧
    ((s.after before).does (LogCall.direct (some path)).perform).1 = .ok ()

theorem openedCons {s : Session} {call : LogCall} {calls later : List LogCall} {path : String}
    (opened : (s.does call.perform).2.Opened calls path later) :
    s.Opened (call :: calls) path later := by
  obtain ⟨before, rfl, fine⟩ := opened
  exact ⟨call :: before, rfl, fine⟩

end Session

namespace LogCall
variable {s : Session} {call : LogCall} {calls : List LogCall} {path text : String}

theorem performTrace (s : Session) (text : String) :
    (s.does (perform (.trace text))).2 = (s.does (StepLog.trace text)).2 := rfl

theorem performEvents (s : Session) (other : call.directs = false) :
    (s.does call.perform).2 = (s.does (StepLog.recordAll call.events)).2 ∨
      s.log = none ∧ (s.does call.perform).2 = s := by
  cases call with
  | direct => contradiction
  | event name detail => exact .inl rfl
  | trace text =>
    rw [performTrace, StepLog.traceRecords]
    cases isOpen : s.log with
    | none => exact .inr ⟨rfl, rfl⟩
    | some log => exact .inl rfl

theorem performLogs (logs : s.Logs path text) (other : call.directs = false) :
    ∃ times, times.length = call.events.length ∧ (∀ time ∈ times, Stamp time) ∧
      (s.does call.perform).2.Logs path (text ++ entries times call.events) ∧
      Confined s.disk (s.does call.perform).2.disk [path] := by
  rcases performEvents s other with recorded | ⟨closed, _⟩
  · rw [recorded]
    exact StepLog.recordsLogs logs call.events
  · have isOpen := logs.isOpen
    rw [closed] at isOpen
    contradiction

theorem performClosed (closed : s.log = none) (other : call.directs = false) :
    (s.does call.perform).2.log = none ∧ (s.does call.perform).2.disk = s.disk := by
  rcases performEvents s other with recorded | ⟨_, same⟩
  · rw [recorded]
    exact StepLog.recordsClosed closed call.events
  · rw [same]
    exact ⟨closed, rfl⟩

theorem afterLogs (logs : s.Logs path text) (others : ∀ call ∈ calls, call.directs = false) :
    ∃ times, times.length = (calls.flatMap events).length ∧ (∀ time ∈ times, Stamp time) ∧
      (s.after calls).Logs path (text ++ entries times (calls.flatMap events)) := by
  induction calls generalizing s text with
  | nil =>
    have nothing : text ++ entries [] [] = text := by simp [entries]
    exact ⟨[], rfl, List.forall_mem_nil _, nothing.symm ▸ logs⟩
  | cons call calls ih =>
    obtain ⟨other, others⟩ := List.forall_mem_cons.mp others
    obtain ⟨first, sameFirst, stamped, logs, _⟩ := performLogs logs other
    obtain ⟨times, same, stamps, logs⟩ := ih logs others
    have joined : entries (first ++ times) ((call :: calls).flatMap events) =
        entries first call.events ++ entries times (calls.flatMap events) := by
      rw [List.flatMap_cons, StepLog.entriesAppend sameFirst]
    refine ⟨first ++ times, by simp [sameFirst, same], List.forall_mem_append.mpr ⟨stamped, stamps⟩, ?_⟩
    rwa [joined, ← String.append_assoc]

theorem afterClosed (closed : s.log = none) (others : ∀ call ∈ calls, call.directs = false) :
    (s.after calls).log = none := by
  induction calls generalizing s with
  | nil => exact closed
  | cons call calls ih =>
    obtain ⟨other, others⟩ := List.forall_mem_cons.mp others
    exact ih (performClosed closed other).1 others

theorem lastDirects (calls : List LogCall) :
    (∀ call ∈ calls, call.directs = false) ∨
      ∃ before path? later, calls = before ++ .direct path? :: later ∧
        ∀ call ∈ later, call.directs = false := by
  induction calls with
  | nil => exact .inl (by simp)
  | cons call calls ih =>
    rcases ih with others | ⟨before, path?, later, rfl, others⟩
    · cases call with
      | direct path? => exact .inr ⟨[], path?, calls, rfl, others⟩
      | event => exact .inl (List.forall_mem_cons.mpr ⟨rfl, others⟩)
      | trace => exact .inl (List.forall_mem_cons.mpr ⟨rfl, others⟩)
    · exact .inr ⟨call :: before, path?, later, rfl, others⟩

theorem openedLogs {later : List LogCall} (opened : s.Opened calls path later)
    (others : ∀ call ∈ later, call.directs = false) :
    ∃ times, times.length = (later.flatMap events).length ∧ (∀ time ∈ times, Stamp time) ∧
      (s.after calls).Logs path (firstLine ++ entries times (later.flatMap events)) := by
  obtain ⟨before, rfl, fine⟩ := opened
  rw [Session.afterAppend]
  exact afterLogs (StepLog.directedLogs fine).1 others

theorem openIff (closed : s.log = none) (calls : List LogCall) :
    (s.after calls).log.isSome ↔
      ∃ path later, s.Opened calls path later ∧ ∀ call ∈ later, call.directs = false := by
  constructor
  · intro isOpen
    rcases lastDirects calls with others | ⟨before, path?, later, rfl, others⟩
    · rw [afterClosed closed others] at isOpen
      contradiction
    · rw [Session.afterAppend, Session.afterCons] at isOpen
      cases path? with
      | none =>
        rw [afterClosed rfl others] at isOpen
        contradiction
      | some path =>
        cases result : ((s.after before).does (direct (some path)).perform).1 with
        | ok => exact ⟨path, later, ⟨before, rfl, result⟩, others⟩
        | error fault =>
          have shut : ((s.after before).does (direct (some path)).perform).2.log = none :=
            (StepLog.directedFails result).1
          rw [afterClosed shut others] at isOpen
          contradiction
  · rintro ⟨path, later, opened, others⟩
    obtain ⟨_, _, _, logs⟩ := openedLogs opened others
    exact logs.isOpen

def Avoids (s : Session) (place : Location) : Prop :=
  s.log = none ∨ ∃ path text, s.Logs path text ∧ ¬s.disk.Leads path place

structure PassesBy (s t : Session) (place : Location) : Prop where
  back : Disk.Keeps t.disk s.disk
  same : t.disk.get? place = s.disk.get? place
  avoids : Avoids t place

section
variable {t : Session} {place : Location}

theorem passesIdle (closed : t.log = none) (disk : t.disk = s.disk) : PassesBy s t place where
  back := disk ▸ ⟨rfl, fun _ directory => directory⟩
  same := by rw [disk]
  avoids := .inl closed

theorem passesLogs (logs : t.Logs path text) (confined : Confined s.disk t.disk [path])
    (other : ¬s.disk.Leads path place) : PassesBy s t place where
  back := confined.back
  same := by
    rcases confined.elsewhere place with ⟨own, member, leads⟩ | same
    · rw [List.mem_singleton.mp member] at leads
      exact absurd leads other
    · exact same
  avoids := .inr ⟨path, text, logs, fun leads => other (confined.back.leads leads)⟩

theorem performPasses (avoids : Avoids s place)
    (apart : ∀ path later, s.Opened (call :: calls) path later → ¬s.disk.Leads path place) :
    PassesBy s (s.does call.perform).2 place := by
  cases kind : call.directs with
  | false =>
    rcases avoids with closed | ⟨path, text, logs, other⟩
    · obtain ⟨still, disk⟩ := performClosed closed kind
      exact passesIdle still disk
    · obtain ⟨_, _, _, logs, confined⟩ := performLogs logs kind
      exact passesLogs logs confined other
  | true =>
    cases call with
    | event => contradiction
    | trace => contradiction
    | direct path? =>
      cases path? with
      | none => exact passesIdle rfl rfl
      | some path =>
        cases result : (s.does (direct (some path)).perform).1 with
        | ok =>
          obtain ⟨logs, confined⟩ := StepLog.directedLogs result
          exact passesLogs logs confined (apart path calls ⟨[], rfl, result⟩)
        | error fault =>
          obtain ⟨shut, disk⟩ := StepLog.directedFails result
          exact passesIdle shut disk

theorem afterSame (avoids : Avoids s place)
    (apart : ∀ path later, s.Opened calls path later → ¬s.disk.Leads path place) :
    (s.after calls).disk.get? place = s.disk.get? place := by
  induction calls generalizing s with
  | nil => rfl
  | cons call calls ih =>
    have passes := performPasses avoids apart
    rw [Session.afterCons, ← passes.same]
    refine ih passes.avoids fun path later opened leads => ?_
    exact apart path later (Session.openedCons opened) (passes.back.leads leads)

end
end LogCall

theorem stampOneLine {time : String} (stamp : Stamp time) : '\n' ∉ time.toList := by
  obtain ⟨whole, places, text, _, _, digits⟩ := stamp
  have inner : '\n' ∉ whole ++ places := fun member => absurd (digits _ member) (by decide)
  rw [List.mem_append, not_or] at inner
  simp [text, inner]

theorem logFollowsCalls {s : Session} (closed : s.log = none) (calls : List LogCall) :
    ((s.after calls).log.isSome ↔
      ∃ path later, s.Opened calls path later ∧ ∀ call ∈ later, call.directs = false) ∧
    (∀ path later, s.Opened calls path later → (∀ call ∈ later, call.directs = false) →
      ∃ times, times.length = (later.flatMap LogCall.events).length ∧ (∀ time ∈ times, Stamp time) ∧
        ((s.after calls).disk.Holds path
            ("textwalk step log start\n" ++ String.join (List.zipWith
              (fun time event => "[" ++ time ++ " ms] " ++ event.1 ++ ": " ++ event.2 ++ "\n")
              times (later.flatMap LogCall.events))).toUTF8 ∨
          (s.after calls).disk.found? path = some .nullDevice)) ∧
    (∀ place, (∀ path later, s.Opened calls path later → ¬s.disk.Leads path place) →
      (s.after calls).disk.get? place = s.disk.get? place) ∧
    (∀ (t : Session) text, (t.does (StepLog.trace text)).1 = Step.ofText text) ∧
    ∀ time (step : Step), Stamp time →
      '\n' ∉ ("[" ++ time ++ " ms] walk.step: " ++ step.row).toList := by
  refine ⟨LogCall.openIff closed calls, ?content, ?others, StepLog.traceSteps, ?oneLine⟩
  case content =>
    intro path later opened others
    obtain ⟨times, same, stamps, logs⟩ := LogCall.openedLogs opened others
    refine ⟨times, same, stamps, ?_⟩
    cases logs with
    | file entry held => exact .inl ⟨_, _, Disk.locateEntry entry held⟩
    | null entry device =>
      refine .inr ?_
      rw [Disk.found?, Disk.locateEntry entry device]
  case others => exact fun place apart => LogCall.afterSame (.inl closed) apart
  case oneLine =>
    intro time step stamp
    simp [stampOneLine stamp, (Step.rowOneLine step).1]

/- The second opening fails, so the event and the walk behind it go nowhere; the third empties the
first file again. -/
theorem logFollowsCallsAcrossFiles :
    let later : List LogCall := [.event "two" "li\nnes", .trace "b\r\n", .event "" ""]
    let earlier : List LogCall :=
      [.direct (some "a"), .event "x" "y", .direct (some "/dev/full"), .event "lost" "",
        .trace "b\r\n", .direct (some "./a")]
    let calls := earlier ++ later
    let after := Session.bare.after calls
    Session.bare.log = none ∧ Session.bare.Opened calls "./a" later ∧ after.log.isSome ∧
    ∃ first second third fourth, Stamp first ∧ Stamp second ∧ Stamp third ∧ Stamp fourth ∧
      after.disk.Holds "./a" ("textwalk step log start\n" ++
        "[" ++ first ++ " ms] two: li\nnes\n" ++
        "[" ++ second ++ " ms] walk.step:      0  <none>  b       \\r      start\n" ++
        "[" ++ third ++ " ms] walk.step:      2  b       \\r      <none>  end\n" ++
        "[" ++ fourth ++ " ms] : \n").toUTF8 := by
  intro later earlier calls after
  have opened : Session.bare.Opened calls "./a" later := ⟨calls.take 5, rfl, rfl⟩
  have others : ∀ call ∈ later, call.directs = false := by simp [later, LogCall.directs]
  have events : later.flatMap LogCall.events =
      ("two", "li\nnes") :: (walkEvents "b\r\n" ++ [("", "")]) := rfl
  have walk : walkEvents "b\r\n" =
      [("walk.step", "     0  <none>  b       \\r      start"),
        ("walk.step", "     2  b       \\r      <none>  end")] := by
    rw [walkEvents, Step.ofTextPlaced]
    rfl
  have file : after.disk.found? "./a" ≠ some .nullDevice := by
    let before := earlier ++ [LogCall.event "two" "li\nnes"]
    have cut : calls = before ++ [.trace "b\r\n", .event "" ""] := rfl
    have last : after = (Session.bare.after before).after [.trace "b\r\n", .event "" ""] :=
      (congrArg Session.bare.after cut).trans (Session.afterAppend _ _ _)
    have held : ∃ content offset, Session.bare.after before =
        { disk :=
            { Disk.bare with
              nodes := (["a", "work"], .file 0 content) :: Disk.bare.nodes
              nextNumber := 1 }
          log := some ⟨.file ["a", "work"] 0, offset⟩ } := ⟨_, _, rfl⟩
    obtain ⟨content, offset, held⟩ := held
    rw [last, held, Session.afterCons, LogCall.performTrace, StepLog.traceRecords, walk,
      if_pos Option.isSome_some]
    intro device
    cases device
  obtain ⟨isOpen, content, _⟩ := logFollowsCalls (s := .bare) rfl calls
  have logs : after.log.isSome := isOpen.mpr ⟨"./a", later, opened, others⟩
  refine ⟨rfl, opened, logs, ?_⟩
  obtain ⟨times, same, stamps, holds | device⟩ := content _ _ opened others
  · rw [events, walk] at same holds
    rcases times with _ | ⟨first, _ | ⟨second, _ | ⟨third, _ | ⟨fourth, _ | _⟩⟩⟩⟩ <;> simp at same
    simp only [List.forall_mem_cons] at stamps
    obtain ⟨one, two, three, four, _⟩ := stamps
    refine ⟨first, second, third, fourth, one, two, three, four, ?_⟩
    refine Eq.mp (congrArg (fun text : String => after.disk.Holds "./a" text.toUTF8) ?_) holds
    rw [← String.toList_inj]
    simp
  · exact absurd device file

end TextCursor
