/-!
Paths as they are written, and the faults that come of using one; the system knows its own faults by a
number. Taking the parent looks at the text alone: slashes at the end, repeated slashes and inner dots
`.` name nothing, and the parent is a leading part of the text as it was written.
-/

namespace TextCursor

inductive Fault where
  | notFound
  | alreadyExists
  | notDirectory
  | isDirectory
  | noSpace
  | nameTooLong
  | nulInPath
  | notUtf8
  | other (text : String)
  deriving DecidableEq, Repr

def Fault.message : Fault → String
  | .notFound => "No such file or directory (os error 2)"
  | .alreadyExists => "File exists (os error 17)"
  | .notDirectory => "Not a directory (os error 20)"
  | .isDirectory => "Is a directory (os error 21)"
  | .noSpace => "No space left on device (os error 28)"
  | .nameTooLong => "File name too long (os error 36)"
  | .nulInPath => "file name contained an unexpected NUL byte"
  | .notUtf8 => "stream did not contain valid UTF-8"
  | .other text => text

namespace Path

def trimIdle : List Char → List Char
  | '/' :: rest => trimIdle rest
  | ['.'] => []
  | '.' :: '/' :: rest => trimIdle rest
  | path => path

/-- The slash of the root, or the dot of a path that begins with one. It names something, so
`trimIdle` must not see it. -/
def leading : List Char → List Char
  | '/' :: _ => ['/']
  | ['.'] => ['.']
  | '.' :: '/' :: _ => ['.']
  | _ => []

def parentOf? (path : List Char) : Option (List Char) :=
  let start := leading path
  let names := trimIdle (path.drop start.length).reverse
  if names.isEmpty then if start = ['.'] then some [] else none
  else some (start ++ (trimIdle (names.dropWhile (· != '/'))).reverse)

theorem trimIdleSuffix (path : List Char) : trimIdle path <:+ path := by
  fun_induction trimIdle path with
  | case1 rest ih => exact ih.trans (List.suffix_cons ..)
  | case2 => exact List.nil_suffix
  | case3 rest ih => exact (ih.trans (List.suffix_cons ..)).trans (List.suffix_cons ..)
  | case4 => exact List.suffix_rfl

theorem trimIdleHead {path : List Char} : (trimIdle path).head? ≠ some '/' := by
  fun_induction trimIdle path with
  | case1 rest ih => exact ih
  | case2 => simp
  | case3 rest ih => exact ih
  | case4 path slash dot dotSlash =>
    intro front
    obtain ⟨rest, rfl⟩ := List.head?_eq_some_iff.mp front
    exact slash rest rfl

theorem leadingLength (path : List Char) : (leading path).length ≤ path.length := by
  fun_cases leading path <;> simp

theorem dropWhileShorter {p : Char → Bool} {l : List Char} (h : ∃ c, l.head? = some c ∧ p c) :
    (l.dropWhile p).length < l.length := by
  obtain ⟨c, head, holds⟩ := h
  cases l with
  | nil => simp at head
  | cons d l =>
    cases Option.some.inj head
    rw [List.dropWhile_cons_of_pos holds, List.length_cons]
    exact Nat.lt_succ_of_le (List.dropWhile_suffix p).length_le

theorem parentShorter {path parent : List Char} (h : parentOf? path = some parent) :
    parent.length < path.length := by
  have short := leadingLength path
  simp only [parentOf?] at h
  split at h
  · split at h <;> try contradiction
    rename_i dot
    cases Option.some.inj h
    rw [dot] at short
    exact short
  · rename_i named
    cases Option.some.inj h
    have kept := (trimIdleSuffix (path.drop (leading path).length).reverse).length_le
    have front := @trimIdleHead (path.drop (leading path).length).reverse
    generalize trimIdle (path.drop (leading path).length).reverse = names at *
    have less : (names.dropWhile (· != '/')).length < names.length := by
      apply dropWhileShorter
      cases names with
      | nil => simp at named
      | cons c rest => exact ⟨c, rfl, by simpa using front⟩
    have after := (trimIdleSuffix (names.dropWhile (· != '/'))).length_le
    simp only [List.length_reverse, List.length_drop, List.length_append] at *
    omega

def parent? (path : String) : Option String := (parentOf? path.toList).map String.ofList

def upwardOf (path : List Char) : List (List Char) :=
  if path.isEmpty then []
  else
    match _h : parentOf? path with
    | none => [path]
    | some parent => path :: upwardOf parent
termination_by path.length
decreasing_by exact parentShorter _h

def upward (path : String) : List String := (upwardOf path.toList).map String.ofList

def join (base name : String) : String :=
  if base.isEmpty || base.toList.getLast? == some '/' then base ++ name else base ++ "/" ++ name

end Path

end TextCursor
