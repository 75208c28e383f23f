import TextCursor.Proofs.Files
import TextCursor.Proofs.Reading
import TextCursor.Session
import TextCursor.Settings

/-! Settings that were saved are loaded again as the text that was written for them. -/
namespace TextCursor

namespace Disk

theorem fromOwnBytes (text : String) : String.fromUTF8? text.toByteArray = some text :=
  dif_pos text.isValidUTF8

def readText (d : Disk) (path : String) : Except Fault String :=
  match d.read path with
  | .error fault => .error fault
  | .ok bytes =>
      match String.fromUTF8? bytes with
      | some text => .ok text
      | none => .error .notUtf8

theorem heldText {d : Disk} {path text : String} (held : d.Holds path text.toUTF8) :
    d.readText path = .ok text := by
  simp [readText, heldRead held, fromOwnBytes]

end Disk

namespace Session
variable {α β : Type}

/-- Does something on a session: what comes out, and the session afterwards. -/
def does (s : Session) (action : StateM Session α) : α × Session := action s

@[simp] theorem doesPure (s : Session) (a : α) : s.does (pure a) = (a, s) := rfl

@[simp] theorem doesBind (s : Session) (action : StateM Session α) (next : α → StateM Session β) :
    s.does (action >>= next) = (s.does action).2.does (next (s.does action).1) := rfl

theorem doesIf (s : Session) (c : Prop) [Decidable c] (first second : StateM Session α) :
    s.does (if c then first else second) = if c then s.does first else s.does second :=
  apply_ite s.does c first second

@[simp] theorem doesPresent (s : Session) (path : String) :
    s.does (Host.present path) = (s.disk.present path, s) := rfl

@[simp] theorem doesRead (s : Session) (path : String) :
    s.does (Host.read path) = (s.disk.read path, s) := rfl

@[simp] theorem doesWrite (s : Session) (path content : String) :
    s.does (Host.write path content) = s.settleDisk (s.disk.write path content.toUTF8) := rfl

@[simp] theorem doesMakeDirectory (s : Session) (path : String) :
    s.does (Host.makeDirectory path) = s.settleDisk (s.disk.makeDirectory path) := rfl

@[simp] theorem doesRemove (s : Session) (path : String) :
    s.does (Host.remove path) = s.settleDisk (s.disk.remove path) := rfl

@[simp] theorem doesIsDirectory (s : Session) (path : String) :
    s.does (Host.isDirectory path) = (s.disk.isDirectory path, s) := rfl

@[simp] theorem doesCreate (s : Session) (path : String) :
    s.does (Host.create path) = s.create path := rfl

@[simp] theorem doesAppend (s : Session) (writer : Writer) (content : String) :
    s.does (Host.append (m := StateM Session) writer content) = s.append writer content := rfl

@[simp] theorem doesLog (s : Session) : s.does Host.log = (s.log, s) := rfl

@[simp] theorem doesSetLog (s : Session) (log : Option Writer) :
    s.does (Host.setLog (m := StateM Session) log) = ((), { s with log }) := rfl

@[simp] theorem doesStartLogClock (s : Session) : s.does Host.startLogClock = ((), s) := rfl

@[simp] theorem doesLogAge (s : Session) : s.does Host.logAge = s.readClock := rfl

@[simp] theorem doesSetTimings (s : Session) (on : Bool) :
    s.does (Host.setTimings on) = ((), { s with timings := on }) := rfl

theorem doesReadTextOf (s : Session) (path : String) :
    s.does (Host.readText path) = (s.disk.readText path, s) := by
  rw [Host.readText, doesBind, doesRead, Disk.readText]
  cases s.disk.read path with
  | error fault => rfl
  | ok bytes => cases decoded : String.fromUTF8? bytes <;> simp [decoded]

theorem settleSource {s : Session} {tried : Except Fault Disk}
    (settled : (s.settleDisk tried).1 = .ok ()) : tried = .ok (s.settleDisk tried).2.disk := by
  cases tried with
  | error fault => contradiction
  | ok disk => rfl

end Session

namespace Settings

section
variable {s after : Session} {path : String}

theorem loadDoes (s : Session) (path : String) :
    s.does (load path) =
      (if s.disk.present path then
        match s.disk.readText path with
        | .error fault => .error (.unreadable path fault)
        | .ok text => (parse text).mapError (.invalid path)
      else .ok {}, s) := by
  rw [load, Session.doesBind, Session.doesPresent]
  cases s.disk.present path with
  | false => rfl
  | true =>
    simp only [if_true, Session.doesBind, Session.doesReadTextOf]
    cases s.disk.readText path <;> rfl

theorem loadState (s : Session) (path : String) : (s.does (load path)).2 = s := by rw [loadDoes]

theorem loadHeld {text : String} (held : s.disk.Holds path text.toUTF8) :
    s.does (load path) = ((parse text).mapError (.invalid path), s) := by
  rw [loadDoes, if_pos (Disk.heldPresent held), Disk.heldText held]

theorem writeFlagsSource {f : Flags} (written : s.does (writeFlags path f) = (.ok (), after)) :
    s.disk.write path (render f).toUTF8 = .ok after.disk := by
  simp only [writeFlags, Session.doesBind, Session.doesWrite, Session.doesPure, Prod.mk.injEq] at written
  obtain ⟨fine, rfl⟩ := written
  exact Session.settleSource (Failure.renamedOk.mp fine)

section
variable {parent : String} {middle : Session} (own : directoryOf? path = some parent)
include own

theorem saveBehind (made : s.does (Host.makeDirectories parent) = (.ok (), middle)) (f : Flags) :
    s.does (save path f) = middle.does (writeFlags path f) := by
  rw [save, own]
  simp only [Session.doesBind, made]

theorem saveBlocked {fault : Fault}
    (stopped : s.does (Host.makeDirectories parent) = (.error fault, middle)) (f : Flags) :
    s.does (save path f) = (.error (.noDirectory parent fault), middle) := by
  rw [save, own]
  simp only [Session.doesBind, stopped]
  rfl

end

theorem saveSource {f : Flags} (saved : s.does (save path f) = (.ok (), after)) :
    ∃ before : Session, before.disk.write path (render f).toUTF8 = .ok after.disk := by
  cases own : directoryOf? path with
  | none =>
    rw [save, own] at saved
    exact ⟨s, writeFlagsSource saved⟩
  | some parent =>
    generalize made : s.does (Host.makeDirectories parent) = outcome
    obtain ⟨result, before⟩ := outcome
    cases result with
    | ok =>
      rw [saveBehind own made] at saved
      exact ⟨before, writeFlagsSource saved⟩
    | error fault =>
      rw [saveBlocked own made] at saved
      cases saved

theorem loadSaved {f : Flags} (saved : s.does (save path f) = (.ok (), after)) {content : ByteArray}
    (file : after.disk.Holds path content) :
    after.does (load path) = ((parse (render f)).mapError (.invalid path), after) := by
  obtain ⟨before, written⟩ := saveSource saved
  rw [Disk.writtenHolds written file] at file
  exact loadHeld file

end
end Settings
end TextCursor
