/-
  Files and directories.

  A run reads two files and writes one.  `FileTree` is what it sees of the file system: a tree with
  a working directory, in which paths are followed name by name.

  1. `Path`             -- a written path: its root and its names, without empty ones and dots;
  2. `FileTree.resolve` -- the place that a path leads to.  A step to the parent is taken from a
                           directory that is there, so `a/..` needs `a`;
  3. `find?`, `read`    -- what stands at a path;
  4. `makeDirectories`, `write`, `save` -- the changes.
-/
import ApiReference.Fault
import ApiReference.Text.Basic

namespace ApiReference

/-! ## 1. Paths -/

/-- **A path**: its root (none, one slash or two) and its names. -/
structure Path where
  root : String
  names : List String
deriving DecidableEq, Repr, Inhabited

namespace Path

/-- The path that a text spells: no empty and no dot names; exactly two leading slashes stay. -/
def ofText (text : String) : Path :=
  let cs := text.toList
  let parts := (Text.splitOn '/' cs).filter (fun p => p != [] && p != ['.'])
  { root := match cs.takeWhile (· == '/') with
      | [] => ""
      | ['/', '/'] => "//"
      | _ => "/"
    names := parts.map String.ofList }

/-- **The spelling of a path**; the empty path is a dot. -/
def text (p : Path) : String :=
  let all := p.root ++ "/".intercalate p.names
  if all = "" then "." else all

/-- The path without its last name. -/
def parent (p : Path) : Path := { p with names := p.names.dropLast }

end Path

/-! ## 2. Places -/

/-- What stands at a place. -/
inductive Entry where
  | directory
  | file (content : String)
deriving DecidableEq, Repr, Inhabited

/-- **A file system**: its entries by their names from the root, and the directory in which relative
    paths start. -/
structure FileTree where
  entries : List (List String × Entry) := []
  home : List String := []
deriving Repr, Inhabited

namespace FileTree

/-- The entry at a place; the root is always there. -/
def lookup? (t : FileTree) (place : List String) : Option Entry :=
  if place = [] then some .directory else t.entries.lookup place

/-- The tree with an entry at a place. -/
def put (t : FileTree) (place : List String) (e : Entry) : FileTree :=
  { t with entries := (place, e) :: t.entries.filter (fun old => old.1 ≠ place) }

/-- The most bytes of one name. -/
def maxName : Nat := 255

/-- The most bytes of a whole path. -/
def maxPath : Nat := 4095

/-- Is this a directory in which names can be looked up? -/
def openDirectory (t : FileTree) (place : List String) : Except FileFault PUnit :=
  match t.lookup? place with
  | none => .error .missing
  | some (.file _) => .error .notADirectory
  | some .directory => .ok ⟨⟩

/-- **The place that names lead to**, name by name. -/
def follow (t : FileTree) : (place names : List String) → Except FileFault (List String)
  | place, [] => .ok place
  | place, name :: rest => do
    t.openDirectory place
    if maxName < name.utf8ByteSize then .error .nameTooLong
    else t.follow (if name = ".." then place.dropLast else place ++ [name]) rest

/-- A path that a file system can hold. -/
def checkPath (p : Path) : Except FileFault PUnit :=
  if p.text.toList.contains (Char.ofNat 0) then .error .badName
  else if maxPath < p.text.utf8ByteSize then .error .nameTooLong
  else .ok ⟨⟩

/-- **The place that a path leads to**, from the root or the working directory. -/
def resolve (t : FileTree) (p : Path) : Except FileFault (List String) := do
  checkPath p
  t.follow (if p.root = "" then t.home else []) p.names

/-! ## 3. Reading -/

/-- **What stands at a path, if anything does.**  Only a name that is too long is a fault. -/
def find? (t : FileTree) (p : Path) : Except FileFault (Option Entry) :=
  match t.resolve p with
  | .ok place => .ok (t.lookup? place)
  | .error .nameTooLong => .error .nameTooLong
  | .error _ => .ok none

/-- The content of the file at a path, if anything stands there. -/
def read (t : FileTree) (p : Path) : Except FileFault (Option String) := do
  match ← t.find? p with
  | some (.file content) => return some content
  | some .directory => .error .isADirectory
  | none => return none

/-! ## 4. Writing -/

/-- A new directory in one that is there. -/
def makeDirectory (t : FileTree) (p : Path) : Except FileFault FileTree := do
  checkPath p
  match p.names.getLast? with
  | none => .error .occupied
  | some name =>
    let place ← t.resolve p.parent
    t.openDirectory place
    if maxName < name.utf8ByteSize then .error .nameTooLong
    else if name = ".." || (t.lookup? (place ++ [name])).isSome then .error .occupied
    else .ok (t.put (place ++ [name]) .directory)

/-- A directory that is made unless it is there. -/
def ensureDirectory (t : FileTree) (p : Path) : Except FileFault FileTree :=
  match t.makeDirectory p with
  | .ok t => .ok t
  | .error .missing => .error .missing
  | .error e => do
    match ← t.find? p with
    | some .directory => .ok t
    | _ => .error e

/-- A directory and those it stands in, given the names in reverse. -/
def makeAll (t : FileTree) (root : String) : List String → Except FileFault FileTree
  | [] => t.ensureDirectory ⟨root, []⟩
  | name :: outer =>
    let p : Path := ⟨root, (name :: outer).reverse⟩
    match t.makeDirectory p with
    | .error .missing => do (← t.makeAll root outer).ensureDirectory p
    | _ => t.ensureDirectory p

/-- **A directory with all the directories it stands in**, as far as they are not there. -/
def makeDirectories (t : FileTree) (p : Path) : Except FileFault FileTree :=
  t.makeAll p.root p.names.reverse

/-- **A file with a content**, new or replaced, in a directory that is there. -/
def write (t : FileTree) (p : Path) (content : String) : Except FileFault FileTree := do
  let place ← t.resolve p
  match t.lookup? place with
  | some .directory => .error .isADirectory
  | _ => .ok (t.put place (.file content))

/-- **A file with a content**, its directory made first. -/
def save (t : FileTree) (p : Path) (content : String) : Except FileFault FileTree := do
  (← t.makeDirectories p.parent).write p content

end FileTree

end ApiReference
