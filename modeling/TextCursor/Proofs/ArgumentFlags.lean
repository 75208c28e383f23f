import TextCursor.Proofs.CommandLines
import TextCursor.Proofs.Scanning

/-! Where the arguments of a run are accepted, a scan of the same arguments finds the flags that
were accepted: what is a value, a file or a separator to the one is nothing or a value to the
other. Only a file behind a separator can be spelled as a flag. -/
namespace TextCursor
open Flags (isKnown scan)

theorem knownDashed {text : String} (known : isKnown text) :
    ∃ name, text.toList = '-' :: '-' :: name := by
  rw [isKnown, Bool.or_eq_true, List.contains_iff_mem] at known
  rcases known with switch | inline
  · have all : ∀ text ∈ ["--summary", "--no-header", "--perf", "--debug-log"],
        ∃ name, text.toList = '-' :: '-' :: name := by
      simp
    exact all text switch
  · obtain ⟨path, value⟩ := Option.isSome_iff_exists.mp inline
    rw [Flags.inlineValueSource value, String.toList_append]
    exact ⟨_, rfl⟩

theorem plainUnknown {text : String} (plain : Taken.isSeparatePath text) : isKnown text = false := by
  rw [Bool.eq_false_iff]
  intro known
  obtain ⟨name, dashes⟩ := knownDashed known
  rw [Taken.isSeparatePath, Bool.or_eq_true] at plain
  rcases plain with alone | other
  · rw [of_decide_eq_true alone] at dashes
    exact absurd dashes (by simp)
  · rw [dashes] at other
    contradiction

namespace Piece

def flags (pieces : List Piece) : Flags :=
  { summary := decide (.summary ∈ pieces.filterMap switch?)
    noHeader := decide (.noHeader ∈ pieces.filterMap switch?)
    perf := decide (.perf ∈ pieces.filterMap switch?)
    debugLog := (pieces.filterMap stepLog?).getLast? }

theorem scanPiece {piece : Piece} (fits : piece.Fits) :
    scan piece.spelling = .ok (flags [piece]) := by
  cases piece with
  | switch s => cases s <;> rfl
  | joinedLog path => exact Flags.scanFromInline {} path []
  | separateLog path => exact Flags.scanFromPath {} path []
  | file text => exact Flags.scanFromUnknown {} (plainUnknown fits) []

theorem flagsAbove (piece : Piece) (pieces : List Piece) :
    flags (piece :: pieces) = (flags [piece]).union (flags pieces) := by
  cases piece with
  | switch s => cases s <;> simp [flags, switch?, stepLog?, Flags.union]
  | joinedLog path => simp [flags, switch?, stepLog?, Flags.union, List.getLast?_cons]
  | separateLog path => simp [flags, switch?, stepLog?, Flags.union, List.getLast?_cons]
  | file text => simp [flags, switch?, stepLog?, Flags.union]

theorem scanPieces {pieces : List Piece} (fits : ∀ piece ∈ pieces, piece.Fits) :
    scan (pieces.flatMap spelling) = .ok (flags pieces) := by
  induction pieces with
  | nil => rfl
  | cons piece pieces ih =>
    obtain ⟨here, further⟩ := List.forall_mem_cons.mp fits
    rw [List.flatMap_cons, Flags.scanAppend (scanPiece here), ih further, flagsAbove piece pieces,
      Except.map]

end Piece

namespace CommandLine
variable {line : CommandLine} {i : Invocation}

theorem flagsGiven (gives : line.Gives i) : Piece.flags line.pieces = i.flags := by
  have log : line.stepLogs.getLast? = i.flags.debugLog := by
    rw [gives.stepLog]
    cases i.flags.debugLog <;> rfl
  rw [Piece.flags, ← CommandLine.switches, ← CommandLine.stepLogs, log, ← gives.switches,
    ← gives.switches, ← gives.switches]
  rfl

/- Nothing is found behind the separator, if the file does not look like a flag there. -/
theorem scanBehind (gives : line.Gives i)
    (apart : line.behind = some [i.file] → isKnown i.file = false) :
    scan (line.behind.elim [] ("--" :: ·)) = .ok {} := by
  have separator : isKnown "--" = false := by decide
  have file := gives.file
  rw [files, List.append_eq_singleton_iff] at file
  cases behind : line.behind with
  | none => rfl
  | some texts =>
    rw [behind] at file apart
    rcases file with ⟨_, own⟩ | ⟨_, nothing⟩
    · cases own
      exact (Flags.scanFromUnknown {} separator [i.file]).trans
        (Flags.scanFromUnknown {} (apart rfl) [])
    · cases nothing
      exact Flags.scanFromUnknown {} separator []

end CommandLine

namespace Request

theorem scanPlain {arguments : List String} {invocation : Invocation}
    (read : Request.read arguments = .ok (.walk invocation)) (plain : isKnown invocation.file = false) :
    Flags.scan arguments = .ok invocation.flags := by
  obtain ⟨line, gives, rfl⟩ := readExact.mp read
  rw [CommandLine.arguments, Flags.scanAppend (Piece.scanPieces gives.fits),
    line.scanBehind gives fun _ => plain, line.flagsGiven gives, Except.map, Flags.unionDefault]

theorem scanOfAccepted {program : String} {arguments : List String} {invocation : Invocation}
    (read : Request.read arguments = .ok (.walk invocation)) (name : isKnown program = false)
    (apart : ∀ before, arguments = before ++ ["--", invocation.file] →
      isKnown invocation.file = false) :
    Flags.scan (program :: arguments) = .ok invocation.flags := by
  obtain ⟨line, gives, rfl⟩ := readExact.mp read
  have behind : scan (line.behind.elim [] ("--" :: ·)) = .ok {} := by
    refine line.scanBehind gives fun file => apart (line.pieces.flatMap Piece.spelling) ?_
    rw [CommandLine.arguments, file]
    rfl
  rw [Flags.scan, Flags.scanFromUnknown _ name, ← Flags.scan, CommandLine.arguments,
    Flags.scanAppend (Piece.scanPieces gives.fits), behind, line.flagsGiven gives,
    Except.map, Flags.unionDefault]

theorem scanOfAcceptedMixed :
    let arguments :=
      ["--perf", "--debug-log", "a --summary", "--no-header", "--save", "--", "--debug-logs"]
    let invocation : Invocation :=
      { file := "--debug-logs", save := true, clear := false
        flags := { noHeader := true, perf := true, debugLog := some "a --summary" } }
    Request.read arguments = .ok (.walk invocation) ∧ isKnown "textwalk" = false ∧
    (∀ before, arguments = before ++ ["--", invocation.file] → isKnown invocation.file = false) ∧
    Flags.scan ("textwalk" :: arguments) = .ok invocation.flags := by
  intro arguments invocation
  have read : Request.read arguments = .ok (.walk invocation) := by rfl
  have name : isKnown "textwalk" = false := by decide
  have file : isKnown invocation.file = false := by decide
  exact ⟨read, name, fun _ _ => file, scanOfAccepted read name fun _ _ => file⟩

end Request
end TextCursor
