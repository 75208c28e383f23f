import TextCursor.Path
/-!
A tree of directories and files, without links and permissions, and the place in it that relative
paths begin at. Files are numbered: a file that is removed and made again under the same name is
another file, and what is still written to the old one is lost. One device takes everything and gives
nothing back, the other has no room for anything.

Following a path, every name but the last has to be a directory; `.` stays and `..` goes up. What the
last name has to be depends on what is done with it. An operation that fails leaves the tree as it was.
-/

namespace TextCursor

/-- Names from a place up to the root, the innermost first. -/
abbrev Location := List String

inductive Node where
  | directory
  | file (number : Nat) (content : ByteArray)
  | nullDevice
  | fullDevice

structure Disk where
  nodes : List (Location × Node)
  nextNumber : Nat
  working : Location

inductive Sink where
  | file (place : Location) (number : Nat)
  | null
  | full
  deriving DecidableEq, Repr

namespace Disk

def bare : Disk :=
  { nodes :=
      [(["work"], .directory), (["dev"], .directory), (["null", "dev"], .nullDevice),
        (["full", "dev"], .fullDevice)]
    nextNumber := 0
    working := ["work"] }

def get? (d : Disk) (place : Location) : Option Node :=
  if place = [] then some .directory else d.nodes.lookup place

def set (d : Disk) (place : Location) (node : Node) : Disk :=
  { d with nodes := (place, node) :: d.nodes.filter fun entry => entry.1 != place }

def erase (d : Disk) (place : Location) : Disk :=
  { d with nodes := d.nodes.filter fun entry => entry.1 != place }

def listing (d : Disk) : List (String × Node) :=
  d.nodes.filterMap fun (place, node) =>
    match d.working.reverse.isPrefixOf? place.reverse with
    | none => none
    | some [] => none
    | some names => some ("/".intercalate names, node)

def names (path : String) : List String :=
  ((path.toList.splitOn '/').filter fun name => !name.isEmpty).map String.ofList

def longestName : Nat := 255

def longestPath : Nat := 4095

def isTooLong (name : String) : Bool := decide (longestName < name.utf8ByteSize)

def walkInto (d : Disk) (here : Location) : List String → Except Fault Location
  | [] => .ok here
  | name :: rest =>
      if name = "." then walkInto d here rest
      else if name = ".." then walkInto d here.tail rest
      else if isTooLong name then .error .nameTooLong
      else
        match d.get? (name :: here) with
        | none => .error .notFound
        | some .directory => walkInto d (name :: here) rest
        | some _ => .error .notDirectory

inductive Target where
  | entry (parent : Location) (name : String) (slashed : Bool)
  /-- What ends in dots, or is all slashes, can only be a directory. -/
  | directory (location : Location)
  deriving DecidableEq, Repr

def target (d : Disk) (path : String) : Except Fault Target :=
  if path.toList.contains '\x00' then .error .nulInPath
  else if path.isEmpty then .error .notFound
  else if longestPath < path.utf8ByteSize then .error .nameTooLong
  else
    let start := if path.toList.head? = some '/' then [] else d.working
    match (names path).reverse with
    | [] => .ok (.directory start)
    | last :: before => do
        let parent ← d.walkInto start before.reverse
        if last = "." then .ok (.directory parent)
        else if last = ".." then .ok (.directory parent.tail)
        else .ok (.entry parent last (path.toList.getLast? == some '/'))

def locate (d : Disk) (path : String) : Except Fault (Location × Node) := do
  match ← d.target path with
  | .directory place => .ok (place, .directory)
  | .entry parent name slashed =>
      if isTooLong name then .error .nameTooLong
      else
        match d.get? (name :: parent) with
        | none => .error .notFound
        | some .directory => .ok (name :: parent, .directory)
        | some node => if slashed then .error .notDirectory else .ok (name :: parent, node)

def present (d : Disk) (path : String) : Bool := (d.locate path).isOk

def isDirectory (d : Disk) (path : String) : Bool :=
  match d.locate path with
  | .ok (_, .directory) => true
  | _ => false

/-- The full device gives zeros without end, which no reader has room for. -/
def read (d : Disk) (path : String) : Except Fault ByteArray := do
  match ← d.locate path with
  | (_, .directory) => .error .isDirectory
  | (_, .file _ content) => .ok content
  | (_, .nullDevice) => .ok .empty
  | (_, .fullDevice) => .error (.other "Cannot allocate memory (os error 12)")

def create (d : Disk) (path : String) : Except Fault (Disk × Sink) := do
  match ← d.target path with
  | .directory _ => .error .isDirectory
  | .entry parent name slashed =>
      if slashed then .error .isDirectory
      else if isTooLong name then .error .nameTooLong
      else
        match d.get? (name :: parent) with
        | none =>
            let made := d.set (name :: parent) (.file d.nextNumber .empty)
            .ok ({ made with nextNumber := d.nextNumber + 1 }, .file (name :: parent) d.nextNumber)
        | some .directory => .error .isDirectory
        | some (.file number _) =>
            .ok (d.set (name :: parent) (.file number .empty), .file (name :: parent) number)
        | some .nullDevice => .ok (d, .null)
        | some .fullDevice => .ok (d, .full)

def overlay (content : ByteArray) (offset : Nat) (bytes : ByteArray) : ByteArray :=
  content.extract 0 offset ++ ⟨Array.replicate (offset - content.size) 0⟩ ++ bytes
    ++ content.extract (offset + bytes.size) content.size

def put (d : Disk) (sink : Sink) (offset : Nat) (bytes : ByteArray) : Except Fault Disk :=
  match sink with
  | .file place number =>
      match d.get? place with
      | some (.file n content) =>
          if n = number then .ok (d.set place (.file n (overlay content offset bytes))) else .ok d
      | _ => .ok d
  | .null => .ok d
  | .full => if bytes.isEmpty then .ok d else .error .noSpace

def write (d : Disk) (path : String) (bytes : ByteArray) : Except Fault Disk := do
  let (opened, sink) ← d.create path
  opened.put sink 0 bytes

def makeDirectory (d : Disk) (path : String) : Except Fault Disk := do
  match ← d.target path with
  | .directory _ => .error .alreadyExists
  | .entry parent name _ =>
      if isTooLong name then .error .nameTooLong
      else
        match d.get? (name :: parent) with
        | some _ => .error .alreadyExists
        | none => .ok (d.set (name :: parent) .directory)

def remove (d : Disk) (path : String) : Except Fault Disk := do
  match ← d.target path with
  | .directory _ => .error .isDirectory
  | .entry parent name slashed =>
      if isTooLong name then .error .nameTooLong
      else
        match d.get? (name :: parent) with
        | none => .error .notFound
        | some .directory => .error .isDirectory
        | some _ => if slashed then .error .notDirectory else .ok (d.erase (name :: parent))

end Disk

end TextCursor
