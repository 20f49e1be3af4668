import Chip8Vm.Outcome

/-!
# Named storage

Files and directories under one root, reached by names: parts between slashes, each a step from the
directory where the walk stands. A walk may leave the root upwards, or start outside by a leading
slash; nothing but directories is known to be there, so from outside no name leads to a file.

Names are texts of characters. A byte that is no part of a character can stand in the name of a file
elsewhere, but not in a name that is given here.

Four things keep a name from leading to a file, and `open?` tells them apart: there is nothing of
that name, a directory is there, the walk would have to go through a file, or the name or a part of
it is longer than it can be. What is wrong with the name as a whole is found before any walk.
-/

set_option autoImplicit false

namespace Chip8Vm

/-- What can have a name. -/
inductive Node where
  | file (bytes : List UInt8)
  | directory
  deriving DecidableEq

/-- The nodes under the root by their way from it, the newest of a name first. -/
structure Storage where
  nodes : List (List String × Node)
  deriving DecidableEq

namespace Storage

/-- A root with nothing under it. -/
def empty : Storage := ⟨[]⟩

/-- The node at the end of a way. -/
def find? (s : Storage) (way : List String) : Option Node :=
  (s.nodes.find? fun node => node.1 == way).map Prod.snd

/-- Where a walk leads. -/
inductive Place where
  | file (bytes : List UInt8)
  /-- A directory, which is outside when its way is not known. -/
  | directory (way : Option (List String))
  | nothing
  /-- Against a file with more of the name to go. -/
  | blocked
  /-- To a part of the name that is too long. -/
  | tooLong
  deriving DecidableEq

/-- One directory up. -/
def parent : Option (List String) → Option (List String)
  | some (part :: way) => some (part :: way).dropLast
  | _ => none

/-- The most bytes that a part of a name can have. -/
def partLimit : Nat := 255

/-- The most bytes that a name can have. -/
def nameLimit : Nat := 4095

/-- Walk from a directory by the parts of a name. -/
def walk (s : Storage) : Option (List String) → List String → Place
  | here, [] => .directory here
  | here, part :: rest =>
    if part = "" ∨ part = "." then walk s here rest
    else if part = ".." then walk s (parent here) rest
    else if partLimit < part.utf8ByteSize then .tooLong
    else
      let next := here.map (· ++ [part])
      match next.bind s.find? with
      | none => .nothing
      | some .directory => walk s next rest
      | some (.file bytes) => if rest.isEmpty then .file bytes else .blocked

/-- The parts of a name. -/
def parts (name : String) : List String := (name.toList.splitOn '/').map String.ofList

/-- The directory that a walk by a name starts from. -/
def start (name : String) : Option (List String) :=
  if name.startsWith "/" then none else some []

/-- The last part of a name, which is empty after a slash. -/
def baseName (name : String) : String :=
  String.ofList (name.toList.reverse.takeWhile (· != '/')).reverse

/-- What is wrong with a name as a whole, if something is. -/
def nameFault? (name : String) : Option Fault :=
  if name.contains '\x00' then some .nul
  else if name = "" then some (.noSuchFile name)
  else if nameLimit < name.utf8ByteSize then some (.nameTooLong name)
  else none

/-- The bytes of the file that a name leads to. -/
def open? (s : Storage) (name : String) : Except Fault (List UInt8) :=
  match nameFault? name with
  | some fault => .error fault
  | none =>
    match s.walk (start name) (parts name) with
    | .file bytes => .ok bytes
    | .directory _ => .error (.isDirectory name)
    | .nothing => .error (.noSuchFile name)
    | .blocked => .error (.notDirectory name)
    | .tooLong => .error (.nameTooLong name)

/-- Put a node under a name whose directory is there, or leave the storage as it is. There is
`noPlace` for a node under a name that ends in dots, or in a slash unless it may; `taken?` says what
is wrong with a name that a node has already. -/
def putNode (name : String) (node : Node) (mayEndInSlash : Bool) (noPlace : Fault)
    (taken? : Node → Option Fault) (s : Storage) : Outcome Storage :=
  match nameFault? name with
  | some fault => .cut s fault
  | none =>
    let way := ((parts name).reverse.dropWhile (· = "")).reverse
    match s.walk (start name) way.dropLast, way.getLast? with
    | .directory _, none => .cut s noPlace
    | .directory here, some part =>
      if part = "." ∨ part = ".." ∨ (name.endsWith "/" ∧ !mayEndInSlash) then .cut s noPlace
      else if partLimit < part.utf8ByteSize then .cut s (.nameTooLong name)
      else
        match here.map (· ++ [part]) with
        | none => .cut s (.noSuchFile name)
        | some way =>
          match (s.find? way).bind taken? with
          | some fault => .cut s fault
          | none => .done ⟨(way, node) :: s.nodes⟩
    | .file _, _ | .blocked, _ => .cut s (.notDirectory name)
    | .tooLong, _ => .cut s (.nameTooLong name)
    | .nothing, _ => .cut s (.noSuchFile name)

/-- Put a file under a name. A directory of that name stays what it is, and a name that ends in a
slash can be that of a directory only. -/
def putFile (name : String) (bytes : List UInt8) (s : Storage) : Outcome Storage :=
  s.putNode name (.file bytes) false (.isDirectory name) fun node =>
    match node with
    | .directory => some (.isDirectory name)
    | .file _ => none

/-- Write a file. It is there and empty before its bytes are asked for, and stays so if they cannot
be had. -/
def write (name : String) (bytes : Except Fault (List UInt8)) (s : Storage) : Outcome Storage :=
  (s.putFile name []).andThen fun s =>
    match bytes with
    | .ok bytes => s.putFile name bytes
    | .error fault => .cut s fault

/-- Make a directory of a name that nothing has. -/
def makeDirectory (name : String) (s : Storage) : Outcome Storage :=
  s.putNode name .directory true (.alreadyThere name) fun _ => some (.alreadyThere name)

/-- Make some directories and then write some files, up to the first that cannot be had. -/
def prepare (directories : List String) (files : List (String × Except Fault (List UInt8))) :
    Outcome Storage :=
  (Outcome.each makeDirectory directories empty).andThen
    (Outcome.each (fun file => write file.1 file.2) files)

end Storage

end Chip8Vm
