import TextCursor.Arguments.Grammar
import TextCursor.Proofs.Reading

/-! The arguments that are accepted are the command lines of the grammar, and they are accepted as
what the grammar says. -/
namespace TextCursor

namespace Argument

def Spells (text : String) : Argument → Prop
  | .separator => text = "--"
  | .switch s => text = s.text
  | .stepLog none => text = "--debug-log"
  | .stepLog (some path) => text = "--debug-log=" ++ path
  | .operand own => own = text ∧ Taken.isSeparatePath text
  | .help => True
  | .version => True
  | .unknown _ => True

theorem ofShortSpells {text : String} {letters : List Char} (dash : text.toList = '-' :: letters) :
    Spells text (ofShort text letters) := by
  fun_cases ofShort text letters with
  | case1 =>
    have alone : text = "-" := String.toList_inj.mp dash
    exact ⟨rfl, by simp [Taken.isSeparatePath, alone]⟩
  | case2 => trivial
  | case3 => trivial
  | case4 => trivial

theorem switchSource {text : String} {s : Switch} (found : Switch.ofText? text = some s) :
    text = s.text := by
  rw [Switch.ofText?] at found
  have own := List.find?_some found
  exact (of_decide_eq_true own).symm

theorem ofNameSpells (text : String) : Spells text (ofName text) := by
  fun_cases ofName text with
  | case1 separator => exact separator
  | case2 => trivial
  | case3 => trivial
  | case4 _ _ _ option => exact option
  | case5 _ _ _ _ s found => exact switchSource found
  | case6 => trivial

theorem ofLongSpells (text : String) : Spells text (ofLong text) := by
  rw [ofLong]
  split
  · exact ofNameSpells text
  · rename_i sign value behind
    split
    · rename_i name
      have head : (text.toList.dropWhile (· != '=')).head? = some sign := by
        rw [behind]
        rfl
      have equals := Text.headNotDropped head
      have whole := List.takeWhile_append_dropWhile (p := (· != '=')) (l := text.toList)
      rw [name, behind, bne_eq_false_iff_eq.mp equals] at whole
      have own : (String.ofList value).toList = value := String.toList_ofList
      rw [Spells, ← String.toList_inj, String.toList_append, own, ← whole]
      rfl
    · trivial

theorem ofTextSpells (text : String) : Spells text (ofText text) := by
  rw [ofText]
  split
  · exact ofLongSpells text
  · rename_i letters _ dash
    exact ofShortSpells dash
  · rename_i long short
    have plain : text.toList.head? ≠ some '-' := by
      intro dash
      obtain ⟨letters, dashed⟩ := List.head?_eq_some_iff.mp dash
      exact short letters dashed
    exact ⟨rfl, by simp [Taken.isSeparatePath, plain]⟩

theorem spelledAs {text : String} {a : Argument} (own : ofText text = a) : Spells text a :=
  own ▸ ofTextSpells text

theorem ofSwitch (s : Switch) : ofText s.text = .switch s := by
  cases s <;> decide

theorem ofJoinedLog (path : String) :
    ofText ("--debug-log=" ++ path) = .stepLog (some path) := by
  have front : ("--debug-log=" ++ path).toList = "--debug-log".toList ++ '=' :: path.toList := by
    rw [String.toList_append]
    rfl
  have name : ∀ c ∈ "--debug-log".toList, c != '=' := by simp
  have long : ofText ("--debug-log=" ++ path) = ofLong ("--debug-log=" ++ path) := by
    rw [ofText, front]
    rfl
  have value : ('=' :: path.toList).dropWhile (· != '=') = '=' :: path.toList := rfl
  have nothing : ('=' :: path.toList).takeWhile (· != '=') = [] := rfl
  rw [long, ofLong, front, List.dropWhile_append_of_pos name, List.takeWhile_append_of_pos name,
    value, nothing, List.append_nil]
  simp only [if_pos, String.ofList_toList]

theorem ofPlain {text : String} (plain : Taken.isSeparatePath text) :
    ofText text = .operand text := by
  rw [Taken.isSeparatePath, Bool.or_eq_true] at plain
  rcases plain with alone | other
  · rw [of_decide_eq_true alone]
    rfl
  · rw [ofText]
    split
    · rename_i dashes
      simp [dashes] at other
    · rename_i dash
      simp [dash] at other
    · rfl

end Argument

namespace Taken
variable {t after : Taken} {i : Invocation} {switches : List Switch} {stepLogs files : List String}

theorem switchAdded {s : Switch} : t.addSwitch s = .ok after ↔
    s ∉ t.switches ∧ { t with switches := s :: t.switches } = after := by
  simp [addSwitch, Failure.refusedOk]

theorem stepLogAdded {path : String} : t.addStepLog path = .ok after ↔
    t.stepLog = none ∧ path ≠ "" ∧ { t with stepLog := some path } = after := by
  simp [addStepLog, Failure.refusedOk]

theorem fileAdded {text : String} : t.addFile text = .ok after ↔
    t.file = none ∧ text ≠ "" ∧ { t with file := some text } = after := by
  simp [addFile, Failure.refusedOk]

theorem finished : t.finish = .ok (.walk i) ↔
    t.file = some i.file ∧ t.stepLog = i.flags.debugLog ∧ ∀ s, i.has s = decide (s ∈ t.switches) := by
  constructor
  · intro done
    rw [finish] at done
    split at done
    · contradiction
    · rename_i found
      cases done
      refine ⟨found, rfl, fun s => ?_⟩
      cases s <;> rfl
  · rintro ⟨file, stepLog, given⟩
    have summary := given .summary
    have noHeader := given .noHeader
    have perf := given .perf
    have save := given .save
    have clear := given .clear
    simp only [Invocation.has] at summary noHeader perf save clear
    simp only [finish, file, flags, stepLog, ← summary, ← noHeader, ← perf, ← save, ← clear]

structure Completed (t : Taken) (switches : List Switch) (stepLogs files : List String)
    (i : Invocation) : Prop where
  once : switches.Nodup
  fresh : ∀ s ∈ switches, s ∉ t.switches
  switches : ∀ s, i.has s = decide (s ∈ t.switches ∨ s ∈ switches)
  stepLog : t.stepLog.toList ++ stepLogs = i.flags.debugLog.toList
  file : t.file.toList ++ files = [i.file]
  proper : ∀ text ∈ files, text ≠ ""

theorem alone {before own : Option String} {text : String} {more : List String}
    (whole : before.toList ++ text :: more = own.toList) : before = none := by
  cases before with
  | none => rfl
  | some other => cases own <;> simp at whole

theorem completedNow : t.finish = .ok (.walk i) ↔ t.Completed [] [] [] i := by
  rw [finished]
  constructor
  · rintro ⟨file, stepLog, given⟩
    exact ⟨by simp, by simp, by simpa using given, by simp [stepLog], by simp [file], by simp⟩
  · rintro ⟨_, _, given, stepLog, file, _⟩
    have same : t.stepLog = i.flags.debugLog := by
      simpa using congrArg List.head? stepLog
    exact ⟨by simpa using file, same, by simpa using given⟩

theorem completedSwitch {s : Switch} :
    (∃ after, t.addSwitch s = .ok after ∧ after.Completed switches stepLogs files i) ↔
      t.Completed (s :: switches) stepLogs files i := by
  simp only [switchAdded, and_assoc, exists_eq_left', exists_and_left]
  constructor
  · rintro ⟨new, once, fresh, given, stepLog, file, proper⟩
    exact ⟨by grind, by grind, by grind, stepLog, file, proper⟩
  · rintro ⟨once, fresh, given, stepLog, file, proper⟩
    exact ⟨fresh s (by simp), by grind, by grind, by grind, stepLog, file, proper⟩

theorem completedStepLog {path : String} (here : path ≠ "") :
    (∃ after, t.addStepLog path = .ok after ∧ after.Completed switches stepLogs files i) ↔
      t.Completed switches (path :: stepLogs) files i := by
  simp only [stepLogAdded, and_assoc, exists_eq_left', exists_and_left]
  constructor
  · rintro ⟨free, _, once, fresh, given, stepLog, file, proper⟩
    exact ⟨once, fresh, given, by rw [free]; exact stepLog, file, proper⟩
  · rintro ⟨once, fresh, given, stepLog, file, proper⟩
    have free := alone stepLog
    rw [free] at stepLog
    exact ⟨free, here, once, fresh, given, stepLog, file, proper⟩

theorem completedFile {text : String} :
    (∃ after, t.addFile text = .ok after ∧ after.Completed switches stepLogs files i) ↔
      t.Completed switches stepLogs (text :: files) i := by
  simp only [fileAdded, and_assoc, exists_eq_left', exists_and_left]
  constructor
  · rintro ⟨free, here, once, fresh, given, stepLog, file, proper⟩
    exact ⟨once, fresh, given, stepLog, by rw [free]; exact file,
      List.forall_mem_cons.mpr ⟨here, proper⟩⟩
  · rintro ⟨once, fresh, given, stepLog, file, proper⟩
    obtain ⟨here, proper⟩ := List.forall_mem_cons.mp proper
    have own : t.file.toList ++ text :: files = (some i.file).toList := file
    have free := alone own
    rw [free] at file
    exact ⟨free, here, once, fresh, given, stepLog, file, proper⟩

def add (t : Taken) : Piece → Except UsageError Taken
  | .switch s => t.addSwitch s
  | .joinedLog path => t.addStepLog path
  | .separateLog path => t.addStepLog path
  | .file text => t.addFile text

theorem completedPiece {piece : Piece} (fits : piece.Fits) (pieces : List Piece) :
    (∃ after, t.add piece = .ok after ∧
        after.Completed (pieces.filterMap Piece.switch?) (pieces.filterMap Piece.stepLog?)
          (pieces.filterMap Piece.file? ++ files) i) ↔
      t.Completed ((piece :: pieces).filterMap Piece.switch?)
        ((piece :: pieces).filterMap Piece.stepLog?)
        ((piece :: pieces).filterMap Piece.file? ++ files) i := by
  cases piece with
  | switch s => exact completedSwitch
  | joinedLog path => exact completedStepLog fits
  | separateLog path => exact completedStepLog fits.1
  | file text => exact completedFile

theorem readPiece {piece : Piece} (fits : piece.Fits) (rest : List String) :
    t.readFrom (piece.spelling ++ rest) = t.add piece >>= fun after => after.readFrom rest := by
  rw [readFrom.eq_def]
  cases piece with
  | switch s => simp only [Piece.spelling, List.singleton_append, Argument.ofSwitch, add]
  | joinedLog path => simp only [Piece.spelling, List.singleton_append, Argument.ofJoinedLog, add]
  | separateLog path =>
    have option : Argument.ofText "--debug-log" = .stepLog none := by decide
    simp only [Piece.spelling, List.cons_append, List.nil_append, option, if_pos fits.2, add]
  | file text => simp only [Piece.spelling, List.singleton_append, Argument.ofPlain fits, add]

theorem readBehind (texts : List String) :
    t.readFrom ("--" :: texts) = .ok (.walk i) ↔ t.Completed [] [] texts i := by
  have separator : Argument.ofText "--" = .separator := by decide
  rw [readFrom.eq_def]
  simp only [separator]
  induction texts generalizing t with
  | nil => exact completedNow
  | cons text texts ih =>
    rw [List.foldlM_cons, bind_assoc, Failure.boundOk, ← completedFile]
    simp only [ih]

theorem readPieces {pieces : List Piece} (fits : ∀ piece ∈ pieces, piece.Fits)
    (behind : Option (List String)) :
    t.readFrom (pieces.flatMap Piece.spelling ++ behind.elim [] ("--" :: ·)) = .ok (.walk i) ↔
      t.Completed (pieces.filterMap Piece.switch?) (pieces.filterMap Piece.stepLog?)
        (pieces.filterMap Piece.file? ++ behind.getD []) i := by
  induction pieces generalizing t with
  | nil =>
    cases behind with
    | none => exact completedNow
    | some texts => exact readBehind texts
  | cons piece pieces ih =>
    obtain ⟨here, further⟩ := List.forall_mem_cons.mp fits
    rw [List.flatMap_cons, List.append_assoc, readPiece here, Failure.boundOk, ← completedPiece here]
    simp only [ih further]

def Spelled (arguments : List String) : Prop :=
  ∃ line : CommandLine, (∀ piece ∈ line.pieces, piece.Fits) ∧ line.arguments = arguments

theorem Spelled.above (piece : Piece) (fits : piece.Fits) {rest : List String}
    (spelled : Spelled rest) : Spelled (piece.spelling ++ rest) := by
  obtain ⟨⟨pieces, behind⟩, further, rfl⟩ := spelled
  refine ⟨⟨piece :: pieces, behind⟩, List.forall_mem_cons.mpr ⟨fits, further⟩, ?_⟩
  rw [CommandLine.arguments, List.flatMap_cons, List.append_assoc, CommandLine.arguments]

/- The reading ends in an invocation only by way of pieces that fit, so its own recursion says how
the arguments are cut into them. -/
theorem readSpelled {arguments : List String} (read : t.readFrom arguments = .ok (.walk i)) :
    Spelled arguments := by
  fun_induction readFrom t arguments with
  | case1 t => exact ⟨⟨[], none⟩, by simp, rfl⟩
  | case2 t text rest separator =>
    have spelled : text = "--" := Argument.spelledAs separator
    exact ⟨⟨[], some rest⟩, by simp, by rw [spelled]; rfl⟩
  | case3 => cases read
  | case4 => cases read
  | case5 t text rest s own ih =>
    have spelled : text = s.text := Argument.spelledAs own
    obtain ⟨after, _, read⟩ := Failure.boundOk.mp read
    rw [spelled]
    exact (ih after read).above (.switch s) trivial
  | case6 t text rest path own ih =>
    have spelled : text = "--debug-log=" ++ path := Argument.spelledAs own
    obtain ⟨after, added, read⟩ := Failure.boundOk.mp read
    obtain ⟨_, proper, _⟩ := stepLogAdded.mp added
    rw [spelled]
    exact (ih after read).above (.joinedLog path) proper
  | case7 => cases read
  | case8 t text own path rest separate ih =>
    have spelled : text = "--debug-log" := Argument.spelledAs own
    obtain ⟨after, added, read⟩ := Failure.boundOk.mp read
    obtain ⟨_, proper, _⟩ := stepLogAdded.mp added
    rw [spelled]
    exact (ih after read).above (.separateLog path) ⟨proper, separate⟩
  | case9 => cases read
  | case10 t text rest file own ih =>
    obtain ⟨rfl, plain⟩ : file = text ∧ _ := Argument.spelledAs own
    obtain ⟨after, _, read⟩ := Failure.boundOk.mp read
    exact (ih after read).above (.file file) plain
  | case11 => cases read

theorem completedFresh {line : CommandLine} (fits : ∀ piece ∈ line.pieces, piece.Fits) :
    Completed {} line.switches line.stepLogs line.files i ↔ line.Gives i := by
  constructor
  · rintro ⟨once, _, given, stepLog, file, proper⟩
    have alone : line.files = [i.file] := file
    exact ⟨fits, once, by simpa using given, stepLog, alone, proper i.file (by simp [alone])⟩
  · rintro ⟨_, once, given, stepLog, file, proper⟩
    exact ⟨once, by simp, by simpa using given, stepLog, file, by simpa [file] using proper⟩

end Taken

namespace Request

theorem readExact {arguments : List String} {i : Invocation} :
    Request.read arguments = .ok (.walk i) ↔
      ∃ line : CommandLine, line.Gives i ∧ line.arguments = arguments := by
  constructor
  · intro read
    obtain ⟨line, fits, rfl⟩ := Taken.readSpelled read
    exact ⟨line, (Taken.completedFresh fits).mp ((Taken.readPieces fits line.behind).mp read), rfl⟩
  · rintro ⟨line, gives, rfl⟩
    exact (Taken.readPieces gives.fits line.behind).mpr
      ((Taken.completedFresh gives.fits).mpr gives)

end Request
end TextCursor
