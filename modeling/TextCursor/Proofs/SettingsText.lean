import TextCursor.Proofs.Reading
import TextCursor.Proofs.Scanning
import TextCursor.Settings

/-! What is read from the text that flags were written as. A switch comes back as it is. A path
comes back trimmed, and only its first line is the path: the further lines are settings of their
own, and an empty first line takes its path from them. -/
namespace TextCursor.Settings
open Text (isSpace lines trim trimEnd trimStart words)

theorem tokensAppend (above below : List Char) :
    tokens (above ++ '\n' :: below) = tokens above ++ tokens below := by
  have cut : lines (above ++ '\n' :: below) = lines above ++ lines below :=
    List.splitOn_append_cons_self above below
  simp only [tokens, cut, List.map_append, List.filter_append, List.flatMap_append]

theorem parseAbove {above : String} {f : Flags} (complete : parse above = .ok f) (below : String) :
    parse (above ++ "\n" ++ below) = (parse below).map f.union := by
  have joined : (above ++ "\n" ++ below).toList = above.toList ++ '\n' :: below.toList := by simp
  rw [parse, joined, tokensAppend, Flags.scanAppend complete, parse]

theorem tokensJoined (texts : List (List Char)) :
    tokens (['\n'].intercalate texts) = texts.flatMap tokens := by
  induction texts with
  | nil => rfl
  | cons text texts ih =>
    cases texts with
    | nil => simp [List.intercalate_singleton]
    | cons next texts =>
      rw [List.intercalate_cons_cons, List.append_assoc, List.singleton_append, tokensAppend, ih]
      rfl

theorem tokensOneLine {text : List Char} (oneLine : '\n' ∉ text) :
    tokens text = if isTelling (trim text) then lineTokens (trim text) else [] := by
  have uncut : lines text = [text] := List.splitOn_eq_singleton oneLine
  rw [tokens, uncut]
  cases telling : isTelling (trim text) <;> simp [telling]

theorem tokensPathLine {path : List Char} (oneLine : '\n' ∉ path) :
    tokens ("--debug-log=".toList ++ path) =
      "--debug-log" :: if trim path = [] then [] else [String.ofList (trim path)] := by
  have trimmed : trim ("--debug-log=".toList ++ path) = "--debug-log".toList ++ '=' :: trimEnd path :=
    Text.trimEndPast "--debug-log".toList rfl path
  have telling : isTelling ("--debug-log".toList ++ '=' :: trimEnd path) := rfl
  have whole : '\n' ∉ "--debug-log=".toList ++ path := by simp [oneLine]
  have value : pathOnLine? ('=' :: trimEnd path) = some (trim path) := by
    rw [pathOnLine?, if_pos rfl, Text.trimTrimEnd]
  rw [tokensOneLine whole, trimmed, if_pos telling, lineTokens, List.isPrefixOf?_eq_some_iff_append_eq.mpr rfl,
    Option.bind_some, value]
  cases own : trim path with
  | nil => rfl
  | cons c rest => simp

def firstLine (text : List Char) : List Char := text.takeWhile (· != '\n')

def furtherLines (text : List Char) : List Char := (text.dropWhile (· != '\n')).drop 1

theorem firstLineOneLine (text : List Char) : '\n' ∉ firstLine text := by
  intro member
  have kept := List.all_eq_true.mp List.all_takeWhile _ member
  contradiction

theorem lineOrMore (text : List Char) :
    firstLine text = text ∧ furtherLines text = [] ∨
      text = firstLine text ++ '\n' :: furtherLines text := by
  induction text with
  | nil => exact .inl ⟨rfl, rfl⟩
  | cons c text ih =>
    cases stop : c != '\n' with
    | false =>
      rw [bne_eq_false_iff_eq.mp stop]
      exact .inr rfl
    | true =>
      have first : firstLine (c :: text) = c :: firstLine text := List.takeWhile_cons_of_pos stop
      have further : furtherLines (c :: text) = furtherLines text :=
        congrArg (List.drop 1) (List.dropWhile_cons_of_pos stop)
      rw [first, further, List.cons_append, List.cons_inj_right, List.cons_inj_right]
      exact ih

theorem lineAlone {text : List Char} (oneLine : '\n' ∉ text) :
    firstLine text = text ∧ furtherLines text = [] := by
  rcases lineOrMore text with alone | more
  · exact alone
  · rw [more] at oneLine
    simp at oneLine

theorem tokensCut (front text : List Char) :
    tokens (front ++ text) = tokens (front ++ firstLine text) ++ tokens (furtherLines text) := by
  rcases lineOrMore text with ⟨first, further⟩ | more
  · rw [first, further]
    exact (List.append_nil _).symm
  · rw [← tokensAppend, List.append_assoc, ← more]

/-- What is read where a path was saved: the path, and the tokens left behind it. -/
def recovered? (path : List Char) : Option (String × List String) :=
  match trim (firstLine path), tokens (furtherLines path) with
  | [], [] => none
  | [], token :: behind => some (token, behind)
  | c :: own, behind => some (String.ofList (c :: own), behind)

theorem tokensPath (path : List Char) :
    tokens ("--debug-log=".toList ++ path) = "--debug-log" ::
      match recovered? path with
      | none => []
      | some (own, behind) => own :: behind := by
  rw [tokensCut, tokensPathLine (firstLineOneLine path), recovered?]
  cases trim (firstLine path) <;> cases tokens (furtherLines path) <;> rfl

theorem recoveredOneLine {path : List Char} (oneLine : '\n' ∉ path) :
    recovered? path = if trim path = [] then none else some (String.ofList (trim path), []) := by
  obtain ⟨first, further⟩ := lineAlone oneLine
  have nothing : tokens [] = [] := rfl
  rw [recovered?, first, further, nothing]
  cases trim path <;> rfl

theorem tokensRender (f : Flags) :
    tokens (render f).toList = f.tokens.flatMap fun token => tokens token.toList := by
  have text : (render f).toList =
      ['\n'].intercalate (heading.toList :: f.tokens.map String.toList) ++ '\n' :: [] := by
    simp [render]
  have comment : tokens heading.toList = [] := by decide
  have nothing : tokens [] = [] := rfl
  rw [text, tokensAppend, tokensJoined, List.flatMap_cons, comment, nothing, List.flatMap_map]
  simp

theorem tokensSwitches (f : Flags) (bare : f.debugLog = none) :
    (f.tokens.flatMap fun token => tokens token.toList) = f.tokens := by
  rcases f with ⟨summary, noHeader, perf, _⟩
  cases bare
  cases summary <;> cases noHeader <;> cases perf <;> decide

theorem parseBare {f : Flags} (bare : f.debugLog = none) : parse (render f) = .ok f := by
  rw [parse, tokensRender, tokensSwitches f bare, Flags.scanSwitches bare]

theorem parsePath {f : Flags} {path : String} (set : f.debugLog = some path) :
    parse (render f) =
      match recovered? path.toList with
      | none => .error .missingValue
      | some (own, behind) =>
        (Flags.scan behind).map (Flags.union { f with debugLog := some own }) := by
  have bare : ({ f with debugLog := none } : Flags).debugLog = none := rfl
  have parts : f.tokens = ({ f with debugLog := none } : Flags).tokens ++ ["--debug-log=" ++ path] := by
    simp [Flags.tokens, set]
  rw [parse, tokensRender, parts, List.flatMap_append, tokensSwitches _ bare,
    Flags.scanAppend (Flags.scanSwitches bare), List.flatMap_singleton, String.toList_append,
    tokensPath]
  cases recovered? path.toList with
  | none => rfl
  | some found =>
    rcases found with ⟨own, behind⟩
    have laid : Flags.union { f with debugLog := none } { debugLog := some own } =
        { f with debugLog := some own } := by simp [Flags.union]
    rw [Flags.scan, Flags.scanFromPath, Flags.scanFromScan, Flags.laidTwice, laid]

theorem pathOnLineSublist {line path : List Char} (found : pathOnLine? line = some path) :
    path.Sublist line := by
  cases line with
  | nil =>
    cases Option.some.inj found
    exact List.Sublist.refl []
  | cons c rest =>
    have behind : (trim rest).Sublist (c :: rest) := (Text.trimSublist rest).cons c
    rw [pathOnLine?] at found
    split at found
    · cases Option.some.inj found
      exact behind
    split at found
    · cases Option.some.inj found
      exact behind
    · contradiction

theorem lineTokensSource {line : List Char} {token : String} (member : token ∈ lineTokens line) :
    token = "--debug-log" ∨ ∀ c ∈ token.toList, c ∈ line := by
  rw [lineTokens] at member
  split at member
  · exact .inl (List.mem_singleton.mp member)
  · rename_i path _ found
    rcases List.mem_cons.mp member with option | own
    · exact .inl option
    · obtain ⟨rest, behind, value⟩ := Option.bind_eq_some_iff.mp found
      rw [List.mem_singleton.mp own, String.toList_ofList,
        ← List.append_eq_of_isPrefixOf?_eq_some behind]
      exact .inr fun c inside => List.mem_append_right _ ((pathOnLineSublist value).subset inside)
  · obtain ⟨word, found, rfl⟩ := List.mem_map.mp member
    rw [String.toList_ofList]
    exact .inr fun c inside => (Text.splitMember (List.mem_filter.mp found).1 inside).1

theorem tokensNoLineFeed {text : List Char} {token : String} (member : token ∈ tokens text) :
    '\n' ∉ token.toList := by
  obtain ⟨line, telling, own⟩ := List.mem_flatMap.mp member
  obtain ⟨piece, cut, rfl⟩ := List.mem_map.mp (List.mem_filter.mp telling).1
  rcases lineTokensSource own with rfl | inside
  · decide
  · intro lineFeed
    have within := (Text.trimSublist piece).subset (inside _ lineFeed)
    have uncut := (Text.splitMember cut within).2
    contradiction

theorem parsedNoLineFeed {text : String} {f : Flags} (complete : parse text = .ok f) {path : String}
    (set : f.debugLog = some path) : '\n' ∉ path.toList := by
  rcases Flags.logSource complete set with none | ⟨token, member, suffix⟩
  · contradiction
  · intro lineFeed
    exact tokensNoLineFeed member (suffix.subset lineFeed)

end TextCursor.Settings
