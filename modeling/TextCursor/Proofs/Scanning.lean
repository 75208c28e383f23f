import Mathlib.Data.List.Basic
import TextCursor.Flags

/-! What a scan gives is laid over what stood before, so a list of tokens can be cut wherever no
path is pending. A path that is found is a token or the end of one. -/
namespace TextCursor.Flags

theorem inlineValueOf (path : String) : inlineValue? ("--debug-log=" ++ path) = some path := by
  rw [inlineValue?, String.toList_append, List.isPrefixOf?_eq_some_iff_append_eq.mpr rfl,
    Option.map_some, String.ofList_toList]

theorem inlineValueSource {token path : String} (found : inlineValue? token = some path) :
    token = "--debug-log=" ++ path := by
  obtain ⟨rest, behind, rfl⟩ := Option.map_eq_some_iff.mp found
  have own : (String.ofList rest).toList = rest := String.toList_ofList
  rw [← String.toList_inj, String.toList_append, own, List.append_eq_of_isPrefixOf?_eq_some behind]

theorem noteFields (f : Flags) (token : String) :
    f.note token =
      { summary := f.summary || token == "--summary"
        noHeader := f.noHeader || token == "--no-header"
        perf := f.perf || token == "--perf"
        debugLog := (inlineValue? token).or f.debugLog } := by
  have switches : ∀ switch ∈ ["--summary", "--no-header", "--perf"], inlineValue? switch = none := by
    decide
  fun_cases note f token with
  | case1 summary => simp [summary, switches]
  | case2 _ noHeader => simp [noHeader, switches]
  | case3 _ _ perf => simp [perf, switches]
  | case4 summary noHeader perf path inline => simp [beq_false_of_ne, summary, noHeader, perf, inline]
  | case5 summary noHeader perf inline =>
    cases f
    simp [beq_false_of_ne, summary, noHeader, perf, inline]

theorem inlineApart {token path : String} (inline : inlineValue? token = some path) :
    ∀ other ∈ ["--summary", "--no-header", "--perf", "--debug-log"], token ≠ other := by
  have bare : ∀ other ∈ ["--summary", "--no-header", "--perf", "--debug-log"],
      inlineValue? other = none := by decide
  rintro other member rfl
  rw [bare token member] at inline
  contradiction

def isKnown (token : String) : Bool :=
  ["--summary", "--no-header", "--perf", "--debug-log"].contains token
    || (inlineValue? token).isSome

theorem noteUnknown (f : Flags) {token : String} (unknown : isKnown token = false) :
    f.note token = f := by
  simp only [isKnown, Bool.or_eq_false_iff, Option.isSome_eq_false_iff, Option.isNone_iff_eq_none,
    List.contains_cons, List.contains_nil] at unknown
  simp [noteFields, unknown]

theorem scanFromNote (f : Flags) {token : String} (complete : token ≠ "--debug-log")
    (rest : List String) : scanFrom f (token :: rest) = scanFrom (f.note token) rest := by
  rw [scanFrom.eq_def]
  exact if_neg complete

theorem scanFromPath (f : Flags) (path : String) (rest : List String) :
    scanFrom f ("--debug-log" :: path :: rest) =
      scanFrom { f with debugLog := some path } rest := by
  rw [scanFrom, if_pos rfl]

theorem scanFromInline (f : Flags) (path : String) (rest : List String) :
    scanFrom f (("--debug-log=" ++ path) :: rest) =
      scanFrom { f with debugLog := some path } rest := by
  have inline := inlineValueOf path
  have other := inlineApart inline
  simp only [List.forall_mem_cons] at other
  obtain ⟨summary, noHeader, perf, complete, _⟩ := other
  rw [scanFromNote f complete, noteFields, inline]
  simp [beq_false_of_ne, summary, noHeader, perf]

theorem scanFromUnknown (f : Flags) {token : String} (unknown : isKnown token = false)
    (rest : List String) : scanFrom f (token :: rest) = scanFrom f rest := by
  have complete : token ≠ "--debug-log" := by
    rintro rfl
    contradiction
  rw [scanFromNote f complete, noteUnknown f unknown]

theorem unionNote (f g : Flags) (token : String) : (f.union g).note token = f.union (g.note token) := by
  simp [noteFields, union, Bool.or_assoc, Option.or_assoc]

theorem scanFromUnion (f g : Flags) (tokens : List String) :
    scanFrom (f.union g) tokens = (scanFrom g tokens).map f.union := by
  fun_induction scanFrom g tokens with
  | case1 g => rfl
  | case2 g => rfl
  | case3 g path rest ih =>
    rw [scanFromPath, ← ih]
    rfl
  | case4 g token rest complete ih => rw [scanFromNote _ complete, unionNote, ih]

theorem scanFromScan (f : Flags) (tokens : List String) :
    scanFrom f tokens = (scan tokens).map f.union := by
  rw [scan, ← scanFromUnion, unionDefault]

theorem laidTwice (f g : Flags) (scanned : Except ScanError Flags) :
    (scanned.map g.union).map f.union = scanned.map (f.union g).union := by
  cases scanned with
  | error cause => rfl
  | ok h => exact congrArg Except.ok (unionAssoc f g h).symm

theorem scanFromAppend {f g : Flags} {tokens : List String} (complete : scanFrom f tokens = .ok g)
    (more : List String) : scanFrom f (tokens ++ more) = scanFrom g more := by
  fun_induction scanFrom f tokens with
  | case1 f => rw [Except.ok.inj complete, List.nil_append]
  | case2 f => contradiction
  | case3 f path rest ih => rw [List.cons_append, List.cons_append, scanFromPath, ih complete]
  | case4 f token rest known ih => rw [List.cons_append, scanFromNote f known, ih complete]

theorem scanAppend {f : Flags} {tokens : List String} (complete : scan tokens = .ok f)
    (more : List String) : scan (tokens ++ more) = (scan more).map f.union := by
  rw [scan, scanFromAppend complete, scanFromScan]

def switches (f : Flags) : Flags := { f with debugLog := none }

theorem scanSwitches {f : Flags} (bare : f.debugLog = none) : scan f.tokens = .ok f := by
  rcases f with ⟨summary, noHeader, perf, _⟩
  cases bare
  cases summary <;> cases noHeader <;> cases perf <;> rfl

theorem logSource {f g : Flags} {tokens : List String} (complete : scanFrom f tokens = .ok g)
    {path : String} (found : g.debugLog = some path) :
    f.debugLog = some path ∨ ∃ token ∈ tokens, path.toList <:+ token.toList := by
  fun_induction scanFrom f tokens with
  | case1 f =>
    cases complete
    exact .inl found
  | case2 f => contradiction
  | case3 f own rest ih =>
    rcases ih complete with same | ⟨token, member, suffix⟩
    · cases Option.some.inj same
      exact .inr ⟨_, by simp, List.suffix_refl _⟩
    · exact .inr ⟨token, by simp [member], suffix⟩
  | case4 f token rest known ih =>
    rcases ih complete with same | ⟨other, member, suffix⟩
    · rw [noteFields, Option.or_eq_some_iff] at same
      rcases same with inline | ⟨_, below⟩
      · refine .inr ⟨token, by simp, ?_⟩
        rw [inlineValueSource inline, String.toList_append]
        exact List.suffix_append _ _
      · exact .inl below
    · exact .inr ⟨other, by simp [member], suffix⟩

end TextCursor.Flags
