import ChunkScope.Document
import ChunkScope.Text.Encoding

/-!
# Files

Paths, what is asked of a file system and what may go wrong with it, and a file system that is a
value.
-/

/-! ## Paths

A path is a text of names with slashes between them. Paths are put together as they stand: nothing
in them is resolved or shortened. -/

namespace ChunkScope.Files.Path

/-- A path below another one. -/
def join (directory name : String) : String :=
  if directory = "" ∨ directory.toList.getLast? = some '/' then directory ++ name
  else directory ++ "/" ++ name

/-- The parts of a path between the slashes in it. -/
def parts (path : String) : List String :=
  (path.toList.splitOn '/').map String.ofList

/-- The names in a path, without those that mean the directory that they are in. -/
def names (path : String) : List String :=
  (parts path).filter fun part => part ≠ "" ∧ part ≠ "."

/-- The path of the directory that a path is in, unless it has no name in it. -/
def parent? (path : String) : Option String :=
  match names path with
  | [] => none
  | name :: rest =>
    let root := if path.toList.head? = some '/' then "/" else ""
    some (root ++ "/".intercalate (name :: rest).dropLast)

end ChunkScope.Files.Path

/-! ## Access to files -/

namespace ChunkScope.Files

/-- Why a file system refused a request: the common reasons, that a file is no text among them, and
any other one in the words of the file system. -/
inductive Fault where
  | missing
  | present
  | notDirectory
  | isDirectory
  | notText
  | other (message : String)
deriving DecidableEq

/-- What is said of a fault. -/
def Fault.message : Fault → String
  | missing => "No such file or directory (os error 2)"
  | present => "File exists (os error 17)"
  | notDirectory => "Not a directory (os error 20)"
  | isDirectory => "Is a directory (os error 21)"
  | notText => "stream did not contain valid UTF-8"
  | other message => message

/-- A file system. Each request may have effects. A file that is written need not be there yet; with
a directory those are made that it is in. -/
structure Access (m : Type → Type) where
  isThere : String → m Bool
  read : String → m (Except Fault Bytes)
  write : String → Bytes → m (Except Fault Unit)
  createDirectories : String → m (Except Fault Unit)

/-! ## Trees of files

A file system that is a value. Relative paths start at the root, as absolute ones do. -/

/-- What a name in a directory stands for. -/
inductive Entry where
  | directory
  | file (data : Bytes)
deriving DecidableEq

/-- A file system: what is in it below the root, each entry under the names that lead to it, in
ascending order of the names. -/
structure Tree where
  entries : List (List String × Entry)

namespace Tree

/-- The tree that has only its root. -/
def empty : Tree := ⟨[]⟩

/-- The entry that some names lead to. -/
def entry? (tree : Tree) : List String → Option Entry
  | [] => some .directory
  | names => Keyed.find? names tree.entries

/-- The fault of a place that is no directory, unless it is one. -/
def requireDirectory (tree : Tree) (place : List String) : Except Fault Unit :=
  match tree.entry? place with
  | some .directory => .ok ()
  | some (.file _) => .error .notDirectory
  | none => .error .missing

/-- The place that a part of a path leads to from another place. -/
def step (place : List String) (part : String) : List String :=
  if part = "" ∨ part = "." then place
  else if part = ".." then place.dropLast
  else place ++ [part]

/-- The place that the parts of a path lead to. All but the last one must be directories. -/
def walk (tree : Tree) : List String → List String → Except Fault (List String)
  | place, [] => .ok place
  | place, part :: rest =>
    match tree.requireDirectory place with
    | .error fault => .error fault
    | .ok () => walk tree (step place part) rest

/-- The place that a path leads to. -/
def locate (tree : Tree) (path : String) : Except Fault (List String) :=
  if path = "" then .error .missing
  else tree.walk [] (Path.parts path)

/-! ### Requests -/

/-- Whether a path leads to an entry. -/
def isThere (tree : Tree) (path : String) : Bool :=
  match tree.locate path with
  | .ok place => (tree.entry? place).isSome
  | .error _ => false

/-- The bytes of a file. -/
def read (tree : Tree) (path : String) : Except Fault Bytes :=
  match tree.locate path with
  | .error fault => .error fault
  | .ok place =>
    match tree.entry? place with
    | some (.file data) => .ok data
    | some .directory => .error .isDirectory
    | none => .error .missing

/-- Sets the bytes of a file. -/
def write (path : String) (data : Bytes) (tree : Tree) : Except Fault Tree :=
  match tree.locate path with
  | .error fault => .error fault
  | .ok place =>
    if tree.entry? place = some .directory then .error .isDirectory
    else .ok ⟨Keyed.insert place (.file data) tree.entries⟩

/-- Makes the directories that the parts of a path name, from a place on. -/
def createParts : List String → List String → Tree → Except Fault Tree
  | _, [], tree => .ok tree
  | place, part :: rest, tree =>
    let place := step place part
    match tree.entry? place with
    | some .directory => createParts place rest tree
    | some (.file _) => .error (if rest = [] then .present else .notDirectory)
    | none => createParts place rest ⟨Keyed.insert place .directory tree.entries⟩

/-- Makes a directory and all those that it is in. -/
def createDirectories (path : String) (tree : Tree) : Except Fault Tree :=
  createParts [] (Path.parts path) tree

/-- Carries out a change, and leaves the tree as it is when there is a fault. -/
def attempt (change : Tree → Except Fault Tree) : StateM Tree (Except Fault Unit) := fun tree =>
  match change tree with
  | .ok tree => (.ok (), tree)
  | .error fault => (.error fault, tree)

/-- A tree as a file system. -/
def access : Access (StateM Tree) where
  isThere path := fun tree => (tree.isThere path, tree)
  read path := fun tree => (tree.read path, tree)
  write path data := attempt (write path data)
  createDirectories path := attempt (createDirectories path)

end Tree

end ChunkScope.Files
