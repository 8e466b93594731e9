/-
  Why a request fails.

  A fault is a cause: the fact document is inconsistent, a value has the wrong shape, a request
  names something that is not there.  `Fault.message` is the one place where wording lives, and only
  the faults that a user can mend carry a message.
-/
import ApiReference.Flags.Family
import ApiReference.Facts.Section

namespace ApiReference

/-- **Why a file cannot be used.** -/
inductive FileFault where
  /-- a directory on the way is not there -/
  | missing
  /-- a file stands where a directory is needed -/
  | notADirectory
  /-- a directory stands where a file is needed -/
  | isADirectory
  /-- a file stands where a directory is to be made -/
  | occupied
  /-- a name or path that is too long for the file system -/
  | nameTooLong
  /-- a path that no file system can hold -/
  | badName
deriving DecidableEq, Repr, Inhabited

/-- **The causes of failure.** -/
inductive Fault where
  /-- a reference to an id that its table does not declare -/
  | unknownReference (table : Section) (key : String)
  /-- a name that is no flag of its family -/
  | unknownFlag (family : FlagFamily) (name : String)
  /-- a text that should spell a whole number -/
  | notANumeral
  /-- an infinity, where a whole number is needed -/
  | infinite
  /-- a value that has no number, where one is needed -/
  | notNumeric
  /-- a value without elements, where a sequence is needed -/
  | notIterable
  /-- a value without entries, where one is looked up -/
  | notIndexable
  /-- a value that is no text, where texts are joined or a pattern is read -/
  | notText
  /-- a list or a map, where a key is needed -/
  | notAKey
  /-- a field of a missing record, or of a value that has no fields -/
  | noField
  /-- a required entry of a map that is not there -/
  | missingKey
  /-- a handle or position outside its range -/
  | outOfRange
  /-- an event pattern that cannot be read -/
  | badPattern
  /-- a walk that would never end, or one that the call stack does not hold -/
  | endless
  /-- a request for a unit that the compilation does not have -/
  | noUnit (name : String)
  /-- a unit without a root symbol -/
  | noRoot (unit : String)
  /-- the command line names a fact file that does not exist -/
  | noFactFile (path : String)
  /-- the content of the fact file is not a mapping -/
  | notAMapping (path : String)
  /-- the content of a file is no document -/
  | unreadable
  /-- the command line leaves out the path to write to -/
  | noOutput
  /-- a file that cannot be read or written -/
  | file (cause : FileFault)
  /-- the command line cannot be read -/
  | usage
deriving DecidableEq, Repr, Inhabited

/-- **The wording of a fault**, where it has one. -/
def Fault.message : Fault → Option String
  | .unknownReference table key =>
    some ("Fact file references unknown " ++ table.entry ++ ": " ++ key)
  | .unknownFlag family name => some ("Unknown " ++ family.label ++ " name: " ++ name)
  | .noUnit name => some ("No source unit named: " ++ name)
  | .noRoot unit => some ("No root symbol for source unit: " ++ unit)
  | .noFactFile path => some ("No fact file found at: " ++ path)
  | .notAMapping path => some ("Fact file is not a mapping: " ++ path)
  | .usage => some "2"
  | _ => none

end ApiReference
