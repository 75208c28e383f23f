import TextCursor.Flags
import TextCursor.Proofs.Scanning

/-! What a token means is told by its place alone. A `--debug-log` and its value lengthen the runs
behind them by two or not at all, and any other token ends a run, so what is behind them keeps
its meaning when they are gone; that is how a scan takes tokens away from the left. -/
namespace TextCursor.Flags

theorem runBound (tokens : List String) (place : Nat) :
    runBefore tokens place ≤ (tokens.take place).length := by
  have part := (List.takeWhile_sublist (· == "--debug-log") (l := (tokens.take place).reverse)).length_le
  rwa [List.length_reverse] at part

theorem runBeforeCons (token : String) (rest : List String) (place : Nat) :
    runBefore (token :: rest) (place + 1) =
      if token = "--debug-log" ∧ runBefore rest place = (rest.take place).length then
        runBefore rest place + 1
      else runBefore rest place := by
  have front : runBefore (token :: rest) (place + 1) =
      (if runBefore rest place = (rest.take place).length then
        (rest.take place).reverse ++ [token].takeWhile (· == "--debug-log")
      else (rest.take place).reverse.takeWhile (· == "--debug-log")).length := by
    rw [runBefore, List.take_succ_cons, List.reverse_cons, List.takeWhile_append,
      List.length_reverse, ← runBefore]
  rw [front]
  by_cases whole : runBefore rest place = (rest.take place).length
  · rw [if_pos whole, whole]
    by_cases own : token = "--debug-log" <;> simp [own]
  · rw [if_neg whole, if_neg (whole ·.2), runBefore]

theorem isValueFirst (tokens : List String) : isValue tokens 0 = false := rfl

theorem isValuePast {token : String} (other : token ≠ "--debug-log") (rest : List String)
    (place : Nat) : isValue (token :: rest) (place + 1) = isValue rest place := by
  simp [isValue, runBeforeCons, other]

theorem isValueSecond (rest : List String) : isValue ("--debug-log" :: rest) 1 = true := rfl

/- A run that reaches back to the two is longer by both if the value is spelled like the flag, and
by neither if it is not. -/
theorem runBeforePair (path : String) (rest : List String) (place : Nat) :
    runBefore ("--debug-log" :: path :: rest) (place + 2) % 2 = runBefore rest place % 2 := by
  have bound := runBound rest place
  by_cases reaches : path = "--debug-log" ∧ runBefore rest place = (rest.take place).length
  · have value : runBefore (path :: rest) (place + 1) = runBefore rest place + 1 := by
      rw [runBeforeCons, if_pos reaches]
    have flag : runBefore ("--debug-log" :: path :: rest) (place + 2) = runBefore rest place + 2 := by
      rw [runBeforeCons, value, List.take_succ_cons, List.length_cons, if_pos ⟨rfl, by omega⟩]
    rw [flag, Nat.add_mod_right]
  · have value : runBefore (path :: rest) (place + 1) = runBefore rest place := by
      rw [runBeforeCons, if_neg reaches]
    have short : ¬runBefore rest place = (rest.take place).length + 1 := by omega
    rw [runBeforeCons, value, List.take_succ_cons, List.length_cons, if_neg (short ·.2)]

theorem isValueBehind (path : String) (rest : List String) (place : Nat) :
    isValue ("--debug-log" :: path :: rest) (place + 2) = isValue rest place := by
  rw [isValue, isValue, runBeforePair]

def lastPath? (tokens : List String) : Option String :=
  (List.range tokens.length).reverse.findSome? (pathAt? tokens)

theorem lastAbove {α : Type} (give : Nat → Option α) (count : Nat) :
    (List.range (count + 1)).reverse.findSome? give =
      ((List.range count).reverse.findSome? (give ∘ Nat.succ)).or (give 0) := by
  rw [List.range_succ_eq_map, List.reverse_cons, ← List.map_reverse, List.findSome?_append,
    List.findSome?_map, List.findSome?_singleton]

theorem byPlacesRead (tokens : List String) :
    byPlaces tokens =
      if isValue tokens tokens.length then .error .missingValue
      else
        .ok
          { summary := occurs "--summary" tokens
            noHeader := occurs "--no-header" tokens
            perf := occurs "--perf" tokens
            debugLog := lastPath? tokens } := rfl

section
variable {token : String} (other : token ≠ "--debug-log") (rest : List String)
include other

theorem occursPast (switch : String) :
    occurs switch (token :: rest) = (token == switch || occurs switch rest) := by
  simp [occurs, List.range_succ_eq_map, List.any_map, Function.comp_def, isValueFirst,
    isValuePast other]

theorem lastPathPast : lastPath? (token :: rest) = (lastPath? rest).or (inlineValue? token) := by
  have behind : pathAt? (token :: rest) ∘ Nat.succ = pathAt? rest := by
    funext place
    simp [pathAt?, isValuePast other]
  have here : pathAt? (token :: rest) 0 = inlineValue? token := by simp [pathAt?, isValueFirst]
  rw [lastPath?, List.length_cons, lastAbove, behind, here, lastPath?]

theorem byPlacesPast : byPlaces (token :: rest) = (byPlaces rest).map (Flags.note {} token).union := by
  rw [byPlacesRead, byPlacesRead, List.length_cons, isValuePast other]
  split
  · rfl
  · simp [Except.map, union, noteFields, occursPast other, lastPathPast other]

end

section
variable (path : String) (rest : List String)

theorem occursBehind {switch : String} (apart : "--debug-log" ≠ switch) :
    occurs switch ("--debug-log" :: path :: rest) = occurs switch rest := by
  simp [occurs, List.range_succ_eq_map, List.any_map, Function.comp_def, isValueFirst,
    isValueSecond, isValueBehind, apart]

theorem lastPathBehind :
    lastPath? ("--debug-log" :: path :: rest) = (lastPath? rest).or (some path) := by
  have behind : (pathAt? ("--debug-log" :: path :: rest) ∘ Nat.succ) ∘ Nat.succ = pathAt? rest := by
    funext place
    simp [pathAt?, isValueBehind]
  have value : pathAt? ("--debug-log" :: path :: rest) 1 = some path := by
    simp [pathAt?, isValueSecond]
  have flag : pathAt? ("--debug-log" :: path :: rest) 0 = none := by rfl
  rw [lastPath?, List.length_cons, List.length_cons, lastAbove, lastAbove, behind, flag,
    Option.or_none, Function.comp_apply, value, lastPath?]

theorem byPlacesBehind :
    byPlaces ("--debug-log" :: path :: rest) =
      (byPlaces rest).map (Flags.union { debugLog := some path }) := by
  rw [byPlacesRead, byPlacesRead, List.length_cons, List.length_cons, isValueBehind]
  split
  · rfl
  · simp [Except.map, union, occursBehind, lastPathBehind]

end

theorem scanFromPlaces (f : Flags) (tokens : List String) :
    scanFrom f tokens = (byPlaces tokens).map f.union := by
  fun_induction scanFrom f tokens with
  | case1 f => exact congrArg Except.ok (unionDefault f).symm
  | case2 f => rfl
  | case3 f path rest ih =>
    have under : f.union { debugLog := some path } = { f with debugLog := some path } := by simp [union]
    rw [ih, byPlacesBehind, laidTwice, under]
  | case4 f token rest other ih => rw [ih, byPlacesPast other, laidTwice, ← unionNote, unionDefault]

theorem scanPlaces (tokens : List String) : scan tokens = byPlaces tokens := by
  have same : Flags.union {} = id := funext defaultUnion
  rw [scan, scanFromPlaces, same]
  cases byPlaces tokens <;> rfl

theorem occursExact {switch : String} {tokens : List String} :
    occurs switch tokens ↔
      ∃ place, isValue tokens place = false ∧ tokens[place]? = some switch := by
  simp only [occurs, List.any_eq_true, List.mem_range, Bool.and_eq_true, Bool.not_eq_true', beq_iff_eq]
  constructor
  · rintro ⟨place, _, free, here⟩
    exact ⟨place, free, here⟩
  · rintro ⟨place, free, here⟩
    exact ⟨place, (List.getElem?_eq_some_iff.mp here).1, free, here⟩

def Gives (tokens : List String) (place : Nat) (path : String) : Prop :=
  if isValue tokens place then tokens[place]? = some path
  else tokens[place]? = some ("--debug-log=" ++ path)

theorem pathAtExact {tokens : List String} {place : Nat} {path : String} :
    pathAt? tokens place = some path ↔ Gives tokens place path := by
  rw [pathAt?, Gives]
  split
  · rfl
  · rw [Option.bind_eq_some_iff]
    constructor
    · rintro ⟨token, here, inline⟩
      rw [here, inlineValueSource inline]
    · intro here
      exact ⟨_, here, inlineValueOf path⟩

theorem givesInside {tokens : List String} {place : Nat} {path : String}
    (gives : Gives tokens place path) : place < tokens.length := by
  rw [Gives] at gives
  split at gives
  · exact (List.getElem?_eq_some_iff.mp gives).1
  · exact (List.getElem?_eq_some_iff.mp gives).1

theorem lastExact {α : Type} {give : Nat → Option α} {count : Nat} {a : α} :
    (List.range count).reverse.findSome? give = some a ↔
      ∃ place < count, give place = some a ∧ ∀ later < count, place < later → give later = none := by
  induction count with
  | zero => simp
  | succ count ih =>
    rw [List.range_succ, List.reverse_concat, List.findSome?_cons]
    cases last : give count with
    | some b =>
      constructor
      · rintro ⟨⟩
        exact ⟨count, Nat.lt_succ_self count, last, fun later bound above => by omega⟩
      · rintro ⟨place, bound, here, none⟩
        rcases Nat.lt_succ_iff_lt_or_eq.mp bound with before | rfl
        · rw [none count (Nat.lt_succ_self count) before] at last
          contradiction
        · exact last.symm.trans here
    | none =>
      rw [ih]
      constructor
      · rintro ⟨place, bound, here, none⟩
        refine ⟨place, Nat.lt_succ_of_lt bound, here, fun later within above => ?_⟩
        rcases Nat.lt_succ_iff_lt_or_eq.mp within with before | rfl
        · exact none later before above
        · exact last
      · rintro ⟨place, bound, here, none⟩
        rcases Nat.lt_succ_iff_lt_or_eq.mp bound with before | rfl
        · exact ⟨place, before, here, fun later within => none later (Nat.lt_succ_of_lt within)⟩
        · rw [last] at here
          contradiction

theorem lastPathExact {tokens : List String} {path : String} :
    lastPath? tokens = some path ↔
      ∃ place, Gives tokens place path ∧ ∀ later other, place < later → ¬Gives tokens later other := by
  simp only [lastPath?, lastExact, pathAtExact, Option.eq_none_iff_forall_ne_some, ne_eq]
  constructor
  · rintro ⟨place, _, gives, none⟩
    exact ⟨place, gives, fun later other above again => none later (givesInside again) above other again⟩
  · rintro ⟨place, gives, none⟩
    exact ⟨place, givesInside gives, gives, fun later _ above other => none later other above⟩

theorem noPathExact {tokens : List String} :
    lastPath? tokens = none ↔ ∀ place path, ¬Gives tokens place path := by
  rw [lastPath?, List.findSome?_eq_none_iff]
  simp only [List.mem_reverse, List.mem_range, Option.eq_none_iff_forall_ne_some, ne_eq, pathAtExact]
  constructor
  · exact fun none place path gives => none place (givesInside gives) path gives
  · exact fun none place _ path => none place path

theorem scanByPlaces (tokens : List String) :
    scan tokens = byPlaces tokens ∧
    (scan tokens = .error .missingValue ↔ runBefore tokens tokens.length % 2 = 1) ∧
    ∀ f, scan tokens = .ok f →
      (f.summary ↔ ∃ place, isValue tokens place = false ∧ tokens[place]? = some "--summary") ∧
      (f.noHeader ↔ ∃ place, isValue tokens place = false ∧ tokens[place]? = some "--no-header") ∧
      (f.perf ↔ ∃ place, isValue tokens place = false ∧ tokens[place]? = some "--perf") ∧
      (∀ path, f.debugLog = some path ↔ ∃ place, Gives tokens place path ∧
        ∀ later other, place < later → ¬Gives tokens later other) ∧
      (f.debugLog = none ↔ ∀ place path, ¬Gives tokens place path) := by
  refine ⟨scanPlaces tokens, ?fails, ?reads⟩
  case fails =>
    rw [scanPlaces, byPlacesRead]
    split
    · rename_i pending
      exact ⟨fun _ => eq_of_beq pending, fun _ => rfl⟩
    · rename_i complete
      exact ⟨nofun, fun odd => absurd (beq_iff_eq.mpr odd) complete⟩
  case reads =>
    intro f complete
    rw [scanPlaces, byPlacesRead] at complete
    split at complete
    · contradiction
    · cases complete
      exact ⟨occursExact, occursExact, occursExact, fun _ => lastPathExact, noPathExact⟩

/- The first run makes `--summary` a value, the second one takes itself as one. -/
theorem scanByPlacesAcrossRuns :
    let tokens := ["--debug-log", "--debug-log", "--debug-log", "--summary", "--perf", "--debug-log=a=b",
      "--debug-log", "--debug-log"]
    let f : Flags := { perf := true, debugLog := some "--debug-log" }
    scan tokens = .ok f ∧ runBefore tokens tokens.length % 2 ≠ 1 ∧
    (¬∃ place, isValue tokens place = false ∧ tokens[place]? = some "--summary") ∧
    ∃ place, Gives tokens place "--debug-log" ∧
      ∀ later other, place < later → ¬Gives tokens later other := by
  intro tokens f
  have complete : scan tokens = .ok f := by rfl
  obtain ⟨_, fails, reads⟩ := scanByPlaces tokens
  obtain ⟨summary, _, _, path, _⟩ := reads f complete
  rw [complete] at fails
  refine ⟨complete, fun odd => ?_, fun occurs => ?_, (path _).mp rfl⟩
  · cases fails.mpr odd
  · cases summary.mpr occurs

end TextCursor.Flags
