/-
  Names of modules and the paths inside them.

  A module's name is the quoted path of its file.  It is shown as an import of that path, relative to
  the directory in which the documentation is made, which the host of a run tells.  Paths are lists of
  code points, because a quoted name may spell half of a pair.

  1. `normalParts`, `relativePath`  -- paths as lists of names;
  2. `moduleDisplayName`            -- the shown name.
-/
import ApiReference.Data.Json
import ApiReference.Text.Basic

namespace ApiReference

/-! ## 1. Paths -/

/-- One name in a path. -/
abbrev PathName := List Nat

/-- The code points of a text. -/
def codePoints (s : String) : List Nat := s.toList.map Char.toNat

/-- The mark between the names of a path. -/
def slash : Nat := '/'.toNat

/-- The names of a path in order, without empty ones and dots. -/
def pathParts (path : List Nat) : List PathName :=
  (Text.splitOn slash path).filter (fun p => p != [] && p != codePoints ".")

/-- The names of an absolute path with its parent steps taken; the root is its own parent. -/
def normalParts (parts : List PathName) : List PathName :=
  (parts.foldl (fun done p => if p = codePoints ".." then done.drop 1 else p :: done) []).reverse

/-- The names of the directory in which documentation is made where the host does not tell. -/
def plainDirectory : List PathName := [codePoints "usr", codePoints "lib"]

/-- The names after the common start of two lists. -/
def dropCommon : List PathName → List PathName → List PathName × List PathName
  | a :: r, b :: t => if a = b then dropCommon r t else (a :: r, b :: t)
  | r, t => (r, t)

/-- **A path relative to a directory**: a step up for each directory left, then the way down. -/
def relativePath (directory : List PathName) (path : List Nat) : List Nat :=
  let start := if path.head? = some slash then [] else directory
  let (up, down) := dropCommon directory (normalParts (start ++ pathParts path))
  let steps := up.map (fun _ => codePoints "..") ++ down
  if steps.isEmpty then codePoints "." else (steps.intersperse [slash]).flatten

/-! ## 2. Module names -/

/-- **The shown name of a module** for documentation made in a directory: a quoted path as an import,
    any other name as it is.  The empty path has no relative form and stays empty. -/
def moduleDisplayName (name : String) (directory : List PathName := plainDirectory) : String :=
  match Json.readLiteral? name with
  | some path =>
    let shown := if path.isEmpty then [] else relativePath directory path
    let forward := shown.map (fun n => if n = '\\'.toNat then slash else n)
    "import(" ++ Text.asciiLiteral forward ++ ")"
  | none => name

end ApiReference
