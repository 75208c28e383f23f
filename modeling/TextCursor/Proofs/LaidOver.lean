import TextCursor.Proofs.SettingsText
import TextCursor.Proofs.Storing
import TextCursor.Run

/-! Laying flags over each other is reading what gave them in one go, for tokens, for the texts of
settings files, and for the files and the arguments of a run together. -/
namespace TextCursor
open Settings (load parse)

namespace Settings

theorem loadedFlags {s : Session} {path text : String} (held : s.disk.Holds path text.toUTF8)
    {f : Flags} : (s.does (load path)).1 = .ok f ↔ parse text = .ok f := by
  rw [loadHeld held]
  exact Failure.renamedOk

theorem loadedInvalid {s : Session} {path text : String} (held : s.disk.Holds path text.toUTF8)
    {cause : Flags.ScanError} :
    (s.does (load path)).1 = .error (.invalid path cause) ↔ parse text = .error cause := by
  rw [loadHeld held]
  refine Failure.renamedError.trans ⟨?_, fun found => ⟨cause, found, rfl⟩⟩
  rintro ⟨found, failed, same⟩
  cases same
  exact failed

end Settings

namespace Run
variable {s : Session} {environment : Environment} {arguments : List String} {invocation : Invocation}
  {f g h : Flags}

theorem savedFlagsLoaded {global : String} (wide : (s.does (load global)).1 = .ok f)
    (near : (s.does (load Settings.localPath)).1 = .ok g) :
    s.does (savedFlags global) = (.ok (f.union g), s) := by
  simp [savedFlags, Settings.loadState, wide, near]

theorem resolvedUnchanged (saves : invocation.save = false) (clears : invocation.clear = false)
    (wide : (s.does (load (Settings.globalPath environment))).1 = .ok f)
    (near : (s.does (load Settings.localPath)).1 = .ok g) (given : Flags.scan arguments = .ok h) :
    s.does (resolve environment arguments invocation) = (.ok ((f.union g).union h), s) := by
  simp [resolve, given, updateSettings, saves, clears, savedFlagsLoaded wide near]

end Run

theorem scanThree {wide near given : List String} {f g h : Flags} (first : Flags.scan wide = .ok f)
    (second : Flags.scan near = .ok g) (third : Flags.scan given = .ok h) :
    Flags.scan (wide ++ near ++ given) = .ok ((f.union g).union h) := by
  have both : Flags.scan (wide ++ near) = .ok (f.union g) := by
    rw [Flags.scanAppend first, second]
    rfl
  rw [Flags.scanAppend both, third]
  rfl

theorem unionIsOneReading :
    (∀ (first more : List String) (f : Flags), Flags.scan first = .ok f →
      Flags.scan (first ++ more) = (Flags.scan more).map f.union) ∧
    (∀ (s t u : Session) (above below joined x y : String) (f : Flags),
      s.disk.Holds above x.toUTF8 → t.disk.Holds below y.toUTF8 →
      u.disk.Holds joined (x ++ "\n" ++ y).toUTF8 → (s.does (load above)).1 = .ok f →
      (∀ g, (t.does (load below)).1 = .ok g → (u.does (load joined)).1 = .ok (f.union g)) ∧
      ((u.does (load joined)).1 = .error (.invalid joined .missingValue) ↔
        (t.does (load below)).1 = .error (.invalid below .missingValue))) ∧
    (∀ (s : Session) (environment : Environment) (arguments : List String)
      (invocation : Invocation) (x y : String) (f g h : Flags),
      invocation.save = false → invocation.clear = false →
      s.disk.Holds (Settings.globalPath environment) x.toUTF8 →
      s.disk.Holds Settings.localPath y.toUTF8 →
      (s.does (load (Settings.globalPath environment))).1 = .ok f →
      (s.does (load Settings.localPath)).1 = .ok g → Flags.scan arguments = .ok h →
      ∃ merged, s.does (Run.resolve environment arguments invocation) = (.ok merged, s) ∧
        Flags.scan (Settings.tokens x.toList ++ Settings.tokens y.toList ++ arguments) =
          .ok merged) := by
  refine ⟨fun first more f complete => Flags.scanAppend complete more, ?files, ?run⟩
  case files =>
    intro s t u above below joined x y f holdsX holdsY holdsBoth complete
    rw [Settings.loadedFlags holdsX] at complete
    have both := Settings.parseAbove complete y
    simp only [Settings.loadedFlags holdsY, Settings.loadedFlags holdsBoth,
      Settings.loadedInvalid holdsY, Settings.loadedInvalid holdsBoth, both]
    exact ⟨fun g below => Failure.mappedOk.mpr ⟨g, below, rfl⟩, Failure.mappedError⟩
  case run =>
    intro s environment arguments invocation x y f g h saves clears holdsX holdsY wide near given
    refine ⟨_, Run.resolvedUnchanged saves clears wide near given, ?_⟩
    exact scanThree ((Settings.loadedFlags holdsX).mp wide) ((Settings.loadedFlags holdsY).mp near)
      given

/- The first tokens end in a path that looks like a switch, so nothing is pending behind them. -/
theorem unionIsOneReadingAcrossFiles :
    let x := "--perf\n--debug-log\n--no-header"
    let y := "# more\n --summary --debug-log= a"
    let first := ["--perf", "--debug-log", "--no-header"]
    let more := ["--summary", "--debug-log=", "a"]
    let arguments := ["--no-header", "notes.txt"]
    let f : Flags := { perf := true, debugLog := some "--no-header" }
    let g : Flags := { summary := true, debugLog := some "" }
    let h : Flags := { noHeader := true }
    let global := "xdg/textwalk/config"
    let file (place : Location) (text : String) (d : Disk) : Disk := d.set place (.file 0 text.toUTF8)
    let paved := (Disk.bare.set ["xdg", "work"] .directory).set ["textwalk", "xdg", "work"] .directory
    let s : Session :=
      { disk := file ["config", "textwalk", "xdg", "work"] x <| file [".textwalkrc", "work"] y <|
          file ["both", "work"] (x ++ "\n" ++ y) paved }
    let e : Environment := { configHome := some "xdg" }
    let i : Invocation := { file := "notes.txt", flags := h, save := false, clear := false }
    Flags.scan first = .ok f ∧ Flags.scan (first ++ ["--debug-log"]) = .error .missingValue ∧
    Flags.scan (first ++ more) = .ok (f.union g) ∧
    Settings.globalPath e = global ∧ s.disk.Holds global x.toUTF8 ∧
    s.disk.Holds Settings.localPath y.toUTF8 ∧ s.disk.Holds "both" (x ++ "\n" ++ y).toUTF8 ∧
    (s.does (load global)).1 = .ok f ∧ (s.does (load Settings.localPath)).1 = .ok g ∧
    (s.does (load "both")).1 = .ok (f.union g) ∧ Flags.scan arguments = .ok h ∧
    s.does (Run.resolve e arguments i) =
      (.ok { summary := true, noHeader := true, perf := true, debugLog := some "" }, s) := by
  intro x y first more arguments f g h global file paved s e i
  have scanned : Flags.scan first = .ok f := rfl
  have pending : Flags.scan (first ++ ["--debug-log"]) = .error .missingValue :=
    unionIsOneReading.1 first ["--debug-log"] f scanned
  have whole : Flags.scan (first ++ more) = .ok (f.union g) :=
    unionIsOneReading.1 first more f scanned
  have path : Settings.globalPath e = global := by decide
  have holdsX : s.disk.Holds "xdg/textwalk/config" x.toUTF8 := ⟨_, _, rfl⟩
  have holdsY : s.disk.Holds Settings.localPath y.toUTF8 := ⟨_, _, rfl⟩
  have holdsBoth : s.disk.Holds "both" (x ++ "\n" ++ y).toUTF8 := ⟨_, _, rfl⟩
  have tokensX : Settings.tokens x.toList = first := by decide
  have tokensY : Settings.tokens y.toList = more := by decide
  have wide : (s.does (load global)).1 = .ok f := by
    rw [Settings.loadedFlags holdsX, parse, tokensX, scanned]
  have near : (s.does (load Settings.localPath)).1 = .ok g := by
    rw [Settings.loadedFlags holdsY, parse, tokensY]
    rfl
  have joined : (s.does (load "both")).1 = .ok (f.union g) :=
    (unionIsOneReading.2.1 s s s global Settings.localPath "both" x y f holdsX holdsY holdsBoth
      wide).1 g near
  have given : Flags.scan arguments = .ok h := rfl
  obtain ⟨merged, resolved, once⟩ := unionIsOneReading.2.2 s e arguments i x y f g h rfl rfl
    (path ▸ holdsX) holdsY (path ▸ wide) near given
  rw [tokensX, tokensY] at once
  cases once
  exact ⟨scanned, pending, whole, path, holdsX, holdsY, holdsBoth, wide, near, joined, given, resolved⟩

end TextCursor
