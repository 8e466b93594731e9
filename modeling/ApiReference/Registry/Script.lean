/-
  Scripts against one registry.

  A script is a list of operations.  Creating a record runs a nested script while the record is
  filling, and the filling may fail afterwards; the record then stays registered as it is.  So a
  script can ask for keys that are still filling, in any nesting.

  1. `Op`, `Answer`   -- the operations and what they answer;
  2. `run`            -- the interpreter.
-/
import ApiReference.Registry

namespace ApiReference.Registry

/-! ## 1. Operations -/

/-- How far a scripted record has come. -/
inductive Progress where
  | empty
  | filling
  | done
deriving DecidableEq, Repr, Inhabited

/-- The word of a state of progress. -/
def Progress.word : Progress → String
  | .empty => "empty"
  | .filling => "filling"
  | .done => "done"

/-- **One operation of a script.** -/
inductive Op where
  /-- the record of a key, created on first request by a nested script that may fail at its end -/
  | getOrCreate (key : String) (fill : List Op) (fails : Bool)
  /-- a record without a key -/
  | register
  | get (key : String)
  | record (handle : Int)
  | contains (key : String)
  | all
deriving Inhabited, Repr

/-- A record in an answer: its handle and how far it has come. -/
abbrev Seen := Nat × Progress

/-- **What an operation answers.** -/
inductive Answer where
  | created (record : Seen) (inner : List Answer)
  | fillFailed (inner : List Answer)
  | registered (handle : Nat)
  | got (record : Option Seen)
  | looked (record : Option Seen)
  | contained (b : Bool)
  | listed (records : List Seen)
deriving Inhabited, Repr

/-- The registry of scripted records. -/
abbrev Scripted := Registry String Progress

/-! ## 2. The interpreter -/

/-- A handle with the state of its record. -/
def see (r : Scripted) (h : Nat) : Seen := (h, r.recordAt h)

mutual

/-- **One operation**: its answer and the registry after it. -/
def Op.run (r : Scripted) : Op → Answer × Scripted
  | .getOrCreate key fill fails =>
    match r.find? key with
    | some h => (.created (see r h) [], r)
    | none =>
      let h := r.size
      let (inner, r) := runAll (r.push (some key) .filling) fill
      if fails then (.fillFailed inner, r)
      else
        let r := r.modify h (fun _ => .done)
        (.created (see r h) inner, r)
  | .register => (.registered r.size, r.push none .empty)
  | .get key => (.got ((r.find? key).map (see r)), r)
  | .record handle => (.looked ((position? r.size handle).map (see r)), r)
  | .contains key => (.contained (r.contains key), r)
  | .all => (.listed ((List.range r.size).map (see r)), r)

/-- **A script**, operation after operation. -/
def runAll (r : Scripted) : List Op → List Answer × Scripted
  | [] => ([], r)
  | op :: ops =>
    let (a, r) := op.run r
    let (as, r) := runAll r ops
    (a :: as, r)

end

end ApiReference.Registry
