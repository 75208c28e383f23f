import TextCursor.Path
import TextCursor.Proofs.Files
import TextCursor.Proofs.Reading

/-! The directories above a path. By its text each of them is a leading part of the path, and where
a path leads to a name in a directory, its parent leads to that directory. -/
namespace TextCursor

namespace Path
variable {path parent front rest : List Char}

def body (path : List Char) : List Char := path.drop (leading path).length

theorem leadingBody (path : List Char) : leading path ++ body path = path := by
  rw [body]
  fun_cases leading path <;> rfl

theorem parentSource (own : parentOf? path = some parent) (inner : parent ≠ []) :
    ∃ trimmed front, trimIdle (body path).reverse = trimmed ∧ trimmed ≠ [] ∧
      (trimIdle (trimmed.dropWhile (· != '/'))).reverse = front ∧ front <+: body path ∧
      parent = leading path ++ front := by
  simp only [parentOf?] at own
  split at own
  · split at own <;> try contradiction
    exact absurd (Option.some.inj own).symm inner
  · rename_i named
    cases Option.some.inj own
    refine ⟨_, _, rfl, fun nothing => named (List.isEmpty_iff.mpr nothing), rfl, ?_, rfl⟩
    rw [← List.reverse_suffix, List.reverse_reverse]
    exact ((trimIdleSuffix _).trans (List.dropWhile_suffix _)).trans (trimIdleSuffix _)

theorem parentFront (own : parentOf? path = some parent) : parent <+: path := by
  rcases Decidable.em (parent = []) with rfl | inner
  · exact List.nil_prefix
  · obtain ⟨_, front, _, _, _, within, rfl⟩ := parentSource own inner
    rwa [← List.prefix_append_right_inj (leading path), leadingBody] at within

theorem parentText {path parent : String} (own : parent? path = some parent) :
    parentOf? path.toList = some parent.toList := by
  obtain ⟨front, found, rfl⟩ := Option.map_eq_some_iff.mp own
  rw [found, String.toList_ofList]

def namesOf (path : List Char) : List (List Char) :=
  (path.splitOn '/').filter fun name => !name.isEmpty

theorem namesOfCut (front rest : List Char) :
    namesOf (front ++ '/' :: rest) = namesOf front ++ namesOf rest := by
  rw [namesOf, List.splitOn_append_cons_self, List.filter_append]
  rfl

theorem namesOfSlashed (path : List Char) : namesOf (path ++ ['/']) = namesOf path := by
  rw [namesOfCut]
  exact List.append_nil _

theorem namesOfOne {name : List Char} (some : name ≠ []) (uncut : ∀ c ∈ name, (c == '/') = false) :
    namesOf name = [name] := by
  rw [namesOf, List.splitOn_eq_singleton_of_beq_eq_false uncut, List.filter_cons_of_pos (by simpa using some)]
  rfl

/- Trimming takes names away as well, but only dots. -/
theorem trimmedNames (path : List Char) : ∃ dots,
    namesOf path.reverse = namesOf (trimIdle path).reverse ++ List.replicate dots ['.'] := by
  fun_induction trimIdle path with
  | case1 rest ih =>
    obtain ⟨dots, names⟩ := ih
    exact ⟨dots, by rw [List.reverse_cons, namesOfSlashed, names]⟩
  | case2 => exact ⟨1, rfl⟩
  | case3 rest ih =>
    obtain ⟨dots, names⟩ := ih
    have text : ('.' :: '/' :: rest).reverse = rest.reverse ++ ['/', '.'] := by simp
    have dot : namesOf ['.'] = [['.']] := rfl
    exact ⟨dots + 1, by rw [text, namesOfCut, names, dot, List.append_assoc, List.replicate_succ']⟩
  | case4 path => exact ⟨0, (List.append_nil _).symm⟩

theorem lastNamed {path : List Char} (inner : path ≠ []) (plain : path.head? ≠ some '/') :
    ∃ name, namesOf path.reverse = namesOf (path.dropWhile (· != '/')).reverse ++ [name] := by
  have text := List.takeWhile_append_dropWhile (p := (· != '/')) (l := path)
  have uncut : ∀ c ∈ (path.takeWhile (· != '/')).reverse, (c == '/') = false := by
    intro c member
    simpa using List.all_eq_true.mp List.all_takeWhile c (List.mem_reverse.mp member)
  have named : path.takeWhile (· != '/') ≠ [] := by
    cases path with
    | nil => contradiction
    | cons c path =>
      rw [List.takeWhile_cons_of_pos (by simpa using plain)]
      exact List.cons_ne_nil _ _
  generalize path.takeWhile (· != '/') = name at text uncut named
  have one : namesOf name.reverse = [name.reverse] :=
    namesOfOne (List.reverse_ne_nil_iff.mpr named) uncut
  refine ⟨name.reverse, ?_⟩
  cases front : path.dropWhile (· != '/') with
  | nil =>
    rw [front, List.append_nil] at text
    rw [← text, one]
    rfl
  | cons c rest =>
    have slash : c = '/' := by simpa [front] using List.head?_dropWhile_not (· != '/') path
    have back : path.reverse = rest.reverse ++ '/' :: name.reverse := by
      rw [← text, front, slash]
      simp
    rw [back, namesOfCut, one, slash, List.reverse_cons, namesOfSlashed]

theorem leadingNames (front : rest <+: body path) :
    namesOf (leading path ++ rest) = namesOf (leading path) ++ namesOf rest := by
  rw [body] at front
  fun_cases leading path with
  | case1 => exact namesOfCut [] rest
  | case2 =>
    cases List.prefix_nil.mp front
    rfl
  | case3 more =>
    cases rest with
    | nil => rfl
    | cons c rest =>
      cases (List.cons_prefix_cons.mp front).1
      have slashed : namesOf ('/' :: rest) = namesOf rest := namesOfCut [] rest
      rw [slashed]
      exact namesOfCut ['.'] rest
  | case4 => rfl

theorem parentNames (own : parentOf? path = some parent) (inner : parent ≠ []) :
    ∃ dots name more, namesOf path =
      namesOf parent ++ List.replicate dots ['.'] ++ name :: List.replicate more ['.'] := by
  obtain ⟨trimmed, front, trim, some, again, within, rfl⟩ := parentSource own inner
  have plain := @trimIdleHead (body path).reverse
  obtain ⟨more, behind⟩ := trimmedNames (body path).reverse
  rw [trim] at plain behind
  obtain ⟨name, last⟩ := lastNamed some plain
  obtain ⟨dots, before⟩ := trimmedNames (trimmed.dropWhile (· != '/'))
  have whole := leadingNames (List.prefix_rfl (l := body path))
  rw [List.reverse_reverse] at behind
  rw [leadingBody, behind, last, before, again] at whole
  refine ⟨dots, name, more, ?_⟩
  rw [whole, leadingNames within]
  simp

structure Begins (front path : List Char) : Prop where
  text : front <+: path
  names : namesOf front <+: namesOf path

theorem beginsItself (path : List Char) : Begins path path := ⟨List.prefix_rfl, List.prefix_rfl⟩

theorem Begins.trans (first : Begins front parent) (second : Begins parent path) :
    Begins front path := ⟨first.text.trans second.text, first.names.trans second.names⟩

theorem parentBegins (own : parentOf? path = some parent) : Begins parent path where
  text := parentFront own
  names := by
    rcases Decidable.em (parent = []) with rfl | inner
    · exact List.nil_prefix
    · obtain ⟨dots, name, more, all⟩ := parentNames own inner
      rw [all, List.append_assoc]
      exact List.prefix_append ..

theorem upwardOfBegins (above : front ∈ upwardOf path) : Begins front path := by
  fun_induction upwardOf path with
  | case1 => contradiction
  | case2 path some none =>
    cases List.mem_singleton.mp above
    exact beginsItself _
  | case3 path some parent own ih =>
    rcases List.mem_cons.mp above with rfl | further
    · exact beginsItself _
    · exact (ih further).trans (parentBegins own)

theorem upwardBegins {path front : String} (above : front ∈ upward path) :
    Begins front.toList path.toList := by
  obtain ⟨text, further, rfl⟩ := List.mem_map.mp above
  rw [String.toList_ofList]
  exact upwardOfBegins further

theorem upwardFirst {path : String} (inner : path.isEmpty = false) :
    ∃ outer, upward path = path :: outer := by
  have some : path.toList.isEmpty = false := by simpa using inner
  rw [upward, upwardOf]
  simp only [some, Bool.false_eq_true, if_false]
  split
  · exact ⟨[], by simp⟩
  · exact ⟨_, by rw [List.map_cons, String.ofList_toList]⟩

end Path

namespace Disk
variable {d : Disk} {path : String} {here place : Location}

theorem namesOfText (path : String) :
    names path = (Path.namesOf path.toList).map String.ofList := rfl

theorem walkAppend (d : Disk) (here : Location) (front rest : List String) :
    d.walkInto here (front ++ rest) = d.walkInto here front >>= fun there => d.walkInto there rest := by
  fun_induction walkInto d here front with
  | case1 here => rfl
  | case2 here front ih => rw [List.cons_append, walkInto, if_pos rfl, ih]
  | case3 here front _ ih => simpa [walkInto] using ih
  | case4 here name front dot dots long => simp [walkInto, dot, dots, long, bind, Except.bind]
  | case5 here name front dot dots short missing =>
    simp [walkInto, dot, dots, short, missing, bind, Except.bind]
  | case6 here name front dot dots short found ih => simp [walkInto, dot, dots, short, found, ih]
  | case7 here name front dot dots short node found other =>
    cases node with
    | directory => exact (found rfl).elim
    | _ => simp [walkInto, dot, dots, short, other, bind, Except.bind]

theorem walkDots (d : Disk) (here : Location) (dots : Nat) :
    d.walkInto here (List.replicate dots ".") = .ok here := by
  induction dots with
  | zero => rfl
  | succ dots ih => rw [List.replicate_succ, walkInto, if_pos rfl, ih]

def start (d : Disk) (path : String) : Location :=
  if path.toList.head? = some '/' then [] else d.working

structure Proper (path : String) : Prop where
  plain : path.toList.contains '\x00' = false
  inner : path.isEmpty = false
  short : path.utf8ByteSize ≤ longestPath

theorem entrySource {name : String} {slashed : Bool}
    (found : d.target path = .ok (.entry place name slashed)) :
    Proper path ∧ name ≠ "." ∧ ∃ before, names path = before ++ [name] ∧
      d.walkInto (d.start path) before = .ok place := by
  rw [target] at found
  split at found
  · contradiction
  rename_i plain
  split at found
  · contradiction
  rename_i inner
  split at found
  · contradiction
  rename_i short
  have proper : Proper path :=
    ⟨eq_false_of_ne_true plain, eq_false_of_ne_true inner, Nat.le_of_not_lt short⟩
  simp only at found
  split at found
  · cases found
  rename_i last before reversed
  obtain ⟨there, walked, found⟩ := Failure.boundOk.mp found
  split at found
  · cases found
  rename_i dot
  split at found
  · cases found
  obtain ⟨rfl, rfl, _⟩ := Target.entry.inj (Except.ok.inj found)
  exact ⟨proper, dot, before.reverse, by rw [← List.reverse_cons, ← reversed, List.reverse_reverse],
    walked⟩

inductive Enters (d : Disk) (here : Location) : String → Location → Prop where
  | stay : Enters d here "." here
  | up : Enters d here ".." here.tail
  | into {name} (dot : name ≠ ".") (dots : name ≠ "..") (short : isTooLong name = false)
      (directory : d.get? (name :: here) = some .directory) : Enters d here name (name :: here)

theorem walkEnters {name : String} (walked : d.walkInto here [name] = .ok place) :
    d.Enters here name place := by
  simp only [walkInto] at walked
  split at walked
  · rename_i dot
    cases walked
    exact dot ▸ .stay
  rename_i dot
  split at walked
  · rename_i dots
    cases walked
    exact dots ▸ .up
  rename_i dots
  split at walked
  · contradiction
  rename_i short
  split at walked
  · contradiction
  · rename_i directory
    cases walked
    exact .into dot dots (eq_false_of_ne_true short) directory
  · contradiction

theorem locateWalked (proper : Proper path)
    (walked : d.walkInto (d.start path) (names path) = .ok place) :
    d.locate path = .ok (place, .directory) := by
  have start : (if path.toList.head? = some '/' then [] else d.working) = d.start path := rfl
  simp only [locate, target, proper.plain, proper.inner, Nat.not_lt.mpr proper.short, start]
  cases reversed : (names path).reverse with
  | nil =>
    rw [List.reverse_eq_nil_iff.mp reversed] at walked
    cases walked
    rfl
  | cons last before =>
    have all : names path = before.reverse ++ [last] := by
      rw [← List.reverse_cons, ← reversed, List.reverse_reverse]
    rw [all, walkAppend] at walked
    obtain ⟨there, walked, into⟩ := Failure.boundOk.mp walked
    simp only [walked, bind, Except.bind]
    cases walkEnters into with
    | stay => rfl
    | up => rfl
    | into dot dots short directory => simp [dot, dots, short, directory]

theorem parentProper {parent : String} (proper : Proper path) (own : Path.parent? path = some parent)
    (inner : parent.isEmpty = false) : Proper parent ∧ d.start parent = d.start path := by
  obtain ⟨rest, text⟩ := Path.parentFront (Path.parentText own)
  have whole : path = parent ++ String.ofList rest := by
    rw [← String.toList_inj, ← text]
    simp
  have plain := proper.plain
  have short := proper.short
  rw [← text, List.contains_append, Bool.or_eq_false_iff] at plain
  rw [whole, String.utf8ByteSize_append] at short
  refine ⟨⟨plain.1, inner, Nat.le_trans (Nat.le_add_right ..) short⟩, ?_⟩
  obtain ⟨c, further, some⟩ := List.exists_cons_of_ne_nil (l := parent.toList) (by simpa using inner)
  rw [start, start, ← text, some]
  rfl

theorem parentReached {parent name : String} {slashed : Bool}
    (found : d.target path = .ok (.entry place name slashed)) (own : Path.parent? path = some parent)
    (inner : parent.isEmpty = false) : d.locate parent = .ok (place, .directory) := by
  obtain ⟨proper, dot, before, last, walked⟩ := entrySource found
  obtain ⟨parentProper, start⟩ := parentProper proper own inner
  obtain ⟨dots, behind, more, all⟩ := Path.parentNames (Path.parentText own) (by simpa using inner)
  have front : before = names parent ++ List.replicate dots "." := by
    rw [namesOfText, all] at last
    cases more with
    | zero =>
      rw [List.map_append] at last
      rw [← List.append_inj_left' last rfl]
      simp [namesOfText]
    | succ more =>
      rw [List.replicate_succ', ← List.cons_append, ← List.append_assoc, List.map_append] at last
      have same : [String.ofList ['.']] = [name] := List.append_inj_right' last rfl
      exact absurd (List.head_eq_of_cons_eq same).symm dot
  rw [front, walkAppend] at walked
  obtain ⟨there, walked, rest⟩ := Failure.boundOk.mp walked
  rw [walkDots] at rest
  cases rest
  exact locateWalked parentProper (start ▸ walked)

end Disk
end TextCursor
