/-
  Building records: the store, and the requests that fill it.

  A build fills records in place while it asks for others.  The store holds the records, the depth of
  the running requests, and the copies that must be made again: a copy may be taken of a record that
  is still filling, so each copy is repeated, in order, when the outermost request ends -- also when
  it ends in a fault.

  1. `Adjust`, `Copy`, `Store`;
  2. `Build`            -- faults leave the store as it was at the fault;
  3. records            -- new ones, changes, copies;
  4. `nested`           -- one request inside another;
  5. `Requests`         -- how a filling asks for other records.
-/
import ApiReference.Model.Basic

namespace ApiReference

/-! ## 1. The store -/

/-- **What a copied member record shows on its own.** -/
inductive Adjust where
  /-- a static member seen from a class that does not declare it -/
  | asStatic (parent : MemberHandle) (id : String)
  /-- a member inherited from another class -/
  | asInherited (base : MemberHandle) (id : String)
  /-- a symbol exported under another name -/
  | withRaw (symbol : SymbolId)
deriving Repr, Inhabited, DecidableEq

/-- The adjusted copy. -/
def Adjust.apply : Adjust → Member → Member
  | .asStatic parent id, c => { c.mark .static with parent := some parent, id }
  | .asInherited base id, c => { c with base := some base, id }
  | .withRaw symbol, c => { c with raw := some symbol }

/-- A copy of one member record over another. -/
structure Copy where
  source : MemberHandle
  target : MemberHandle
  adjust : Adjust
deriving Repr, Inhabited, DecidableEq

/-- **The model under construction.** -/
structure Store extends Model where
  /-- how many requests are running -/
  depth : Nat := 0
  /-- every copy asked for so far, in order: where each view and alias comes from -/
  copies : List Copy := []
  /-- the copies to repeat when the outermost request ends, in order -/
  pending : List Copy := []
  /-- the records whose filling came to its end, the last one first -/
  filled : List RecordHandle := []
  /-- what was skipped, in order -/
  warnings : List String := []
deriving Inhabited

/-- One copy made. -/
def Store.runCopy (s : Store) (c : Copy) : Store :=
  { s with members := s.members.modify c.target.index (fun _ => c.adjust.apply (s.member c.source)) }

/-- **The pending copies made again**, in order. -/
def Store.flush (s : Store) : Store := { s.pending.foldl Store.runCopy s with pending := [] }

/-- The end of a request: the outermost one makes the pending copies again. -/
def Store.leave (s : Store) : Store :=
  let s := { s with depth := s.depth - 1 }
  if s.depth = 0 then s.flush else s

/-! ## 2. Builds -/

/-- **A build**: it changes the store and gives a result or a fault. -/
abbrev Build := ExceptT Fault (StateM Store)

namespace Build

/-- A result of the facts inside a build. -/
def orFault {α : Type} : Except Fault α → Build α
  | .ok a => pure a
  | .error f => throw f

/-! ## 3. Records -/

/-- A member record now. -/
def member (h : MemberHandle) : Build Member := return (← get).member h

/-- A type record now. -/
def type (h : TypeHandle) : Build TypeExpr := return (← get).type h

/-- A change of a member record. -/
def modifyMember (h : MemberHandle) (f : Member → Member) : Build PUnit :=
  modify (fun s => { s with members := s.members.modify h.index f })

/-- A change of a type record. -/
def modifyType (h : TypeHandle) (f : TypeExpr → TypeExpr) : Build PUnit :=
  modify (fun s => { s with types := s.types.modify h.index f })

/-- A change of a unit record. -/
def modifyUnit (h : UnitHandle) (f : UnitRecord → UnitRecord) : Build PUnit :=
  modify (fun s => { s with units := s.units.modify h.index f })

/-- A new member record, with its symbol if it belongs to one. -/
def pushMember (key : Option (Option SymbolId)) : Build MemberHandle :=
  modifyGet (fun s => (⟨s.members.size⟩, { s with members := s.members.push key {} }))

/-- A new type record, with its type if it belongs to one. -/
def pushType (key : Option (Option TypeRef)) : Build TypeHandle :=
  modifyGet (fun s => (⟨s.types.size⟩, { s with types := s.types.push key {} }))

/-- A new unit record for a position of the compilation. -/
def pushUnit (key : Nat) : Build UnitHandle :=
  modifyGet (fun s => (⟨s.units.size⟩, { s with units := s.units.push (some key) {} }))

/-- A member record that belongs to no symbol. -/
def newMember : Build MemberHandle := pushMember none

/-- A type record that belongs to no type. -/
def newType : Build TypeHandle := pushType none

/-- The end of a filling. -/
def complete (x : RecordHandle) : Build PUnit :=
  modify (fun s => { s with filled := x :: s.filled })

/-- **A copy of a member record**, made now and again when the outermost request ends. -/
def copyMember (source target : MemberHandle) (adjust : Adjust) : Build PUnit :=
  modify (fun s =>
    let c : Copy := ⟨source, target, adjust⟩
    let s : Store := { s.runCopy c with copies := s.copies ++ [c] }
    if s.depth = 0 then s else { s with pending := s.pending ++ [c] })

/-! ## 4. Nesting -/

/-- **One request inside those that are running**, ended by `Store.leave` whatever its outcome. -/
def nested {α : Type} (action : Build α) : Build α :=
  ExceptT.mk fun s =>
    let (result, s) := action.run { s with depth := s.depth + 1 }
    (result, s.leave)

/-- The member record of a symbol, registered and then filled on the first request. -/
def requestMember (fill : Option SymbolId → MemberHandle → Build PUnit) (key : Option SymbolId) :
    Build MemberHandle :=
  nested do
    match (← get).members.find? key with
    | some h => return ⟨h⟩
    | none =>
      let h ← pushMember (some key)
      fill key h
      complete (.member h)
      return h

/-- The record of a type, registered and then filled on the first request. -/
def requestType (fill : Option TypeRef → TypeHandle → Build PUnit) (key : Option TypeRef) :
    Build TypeHandle :=
  nested do
    match (← get).types.find? key with
    | some h => return ⟨h⟩
    | none =>
      let h ← pushType (some key)
      fill key h
      complete (.type h)
      return h

end Build

/-! ## 5. Requests -/

/-- **How a filling asks for the records of other symbols and types.** -/
structure Requests where
  member : Option SymbolId → Build MemberHandle
  type : Option TypeRef → Build TypeHandle

end ApiReference
