/-
  Classes and interfaces.

  A class lists its own members directly, and a member that another class declares as a view: a copy
  under the id of the listing class.  Instance members come first, in display order, then the static
  ones.

  1. `implementation`   -- the declaration that documents a class;
  2. `ownOrView`, `fillInstanceSide`;
  3. `fillStatics`, `fillClass`.
-/
import ApiReference.Build.Fields
import ApiReference.Model.ClassView

namespace ApiReference.Build

variable (cx : Context) (r : Requests)

/-! ## 1. The documenting declaration -/

/-- **The declaration that documents a class or interface**: the class declaration, else the best
    documented interface declaration, else the first. -/
def implementation (ds : List (Option DeclarationId)) : Except Fault (Option DeclarationId) := do
  match ← firstDeclaration? cx (fun d => d.kind = .classDeclaration) ds with
  | some d => return some d
  | none =>
    match bestDeclaration cx (← declarationsWith cx (fun d => d.kind = .interfaceDeclaration) ds) with
    | some d => return some d
    | none => return ds.head?.join

/-! ## 2. The instance side -/

/-- The id of a member under the id of the class that lists it. -/
def viewId (owner : MemberHandle) (prop : SymbolId) : Build String :=
  return (← member owner).id ++ "." ++ (cx.facts.symbol prop).escapedName

/-- **A member as a class lists it**: itself if the class declares it, else a view. -/
def ownOrView (symbol : SymbolId) (h : MemberHandle) (prop : Option SymbolId) :
    Build MemberHandle := do
  let child ← r.member prop
  let p ← orFault (present prop)
  if cx.facts.parentOf p = some symbol then return child
  else
    let view ← newMember
    copyMember child view (.asInherited child (← viewId cx h p))
    return view

/-- The view of a member found by name, if there is one. -/
def pseudoMember (symbol : SymbolId) (h : MemberHandle) (found : Option SymbolId) :
    Build (List MemberHandle) :=
  match found with
  | none => return []
  | some s => return [← ownOrView cx r symbol h (some s)]

/-- The constructor of a type. -/
def constructorOf (declared : TypeRef) : Except Fault (Option SymbolId) := do
  match ← cx.lookupMember (some declared) Facts.constructorName with
  | some s => return some s
  | none => cx.lookupMember (some declared) Facts.newName

/-- **The instance members**, with the types they are declared on. -/
def fillInstanceSide (symbol : SymbolId) (declared : TypeRef) (h : MemberHandle) : Build PUnit := do
  let f := cx.facts
  let declaredType ← r.type (some declared)
  modifyMember h (fun c => { c with declaredType := some declaredType })
  let generics ← typeParameters cx r (f.type declared).typeParameters
  modifyMember h (fun c => { c with typeParameters := generics })
  let bases ← (f.type declared).baseTypes.mapM (fun b => r.type (b.map .known))
  modifyMember h (fun c => { c with extends_ := some (bases.map some) })
  let props ← orFault (cx.propertiesOf (some declared))
  let members ← props.mapM (ownOrView cx r symbol h)
  let call ← pseudoMember cx r symbol h (← orFault (cx.lookupMember (some declared) Facts.callName))
  let constructor ← pseudoMember cx r symbol h (← orFault (constructorOf cx declared))
  let index ← pseudoMember cx r symbol h (← orFault (cx.lookupMember (some declared) Facts.indexName))
  let all := constructor ++ call ++ members ++ index
  modify (fun s =>
    let shown := if cx.settings.sort then sortMembers s.toModel all else all
    { s with members := s.members.modify h.index (fun c =>
      { c with members := some (c.members.getD [] ++ shown.map some) }) })

/-! ## 3. Statics and the whole record -/

/-- One static member, or the view of one that another class declares. -/
def fillStatic (symbol : SymbolId) (h : MemberHandle) (prop : SymbolId) : Build PUnit := do
  let own ← r.member (some prop)
  let shown ←
    if cx.facts.parentOf prop = some symbol then pure own
    else do
      let view ← newMember
      copyMember own view (.asStatic h (← viewId cx h prop))
      pure view
  modifyMember h (fun c => { c with members := some (c.members.getD [] ++ [some shown]) })

/-- **The static members**, the prototype left out. -/
def fillStatics (symbol : SymbolId) (h : MemberHandle) : List (Option SymbolId) → Build PUnit
  | [] => pure ()
  | prop :: rest => do
    let p ← orFault (present prop)
    if (cx.facts.symbol p).flags.meets SymbolFlags.prototypes then fillStatics symbol h rest
    else
      fillStatic cx r symbol h p
      fillStatics symbol h rest

/-- The type on which the instance members stand: the declared one, else the result of the first
    construct signature. -/
def instanceType (symbol : SymbolId) (constructs : List (Option SignatureId)) :
    Except Fault (Option TypeRef) :=
  match (cx.facts.symbol symbol).declaredType, constructs with
  | some t, _ => .ok (some (.known t))
  | none, [] => .ok none
  | none, c :: _ => do return some (.orError (cx.facts.signature (← present c)).returnType)

/-- **A class or interface record.** -/
def fillClass (symbol : SymbolId) (h : MemberHandle) : Build PUnit := do
  let f := cx.facts
  let s := f.symbol symbol
  let decl ← orFault (implementation cx s.declarations)
  let static := f.typeOfSymbol symbol
  let constructs := (f.type static).constructSignatures
  let isClass := s.flags.meets SymbolFlags.classes || !constructs.isEmpty
  fillBase cx r s.comment symbol decl (if isClass then .class_ else .interface) h
  let declared ← orFault (instanceType cx symbol constructs)
  modifyMember h (fun c => { c with members := some [] })
  match declared with
  | none => pure ()
  | some t => fillInstanceSide cx r symbol t h
  let implemented := ((decl.map f.declaration).getD {}).implements
  if implemented.isEmpty then pure ()
  else
    let types ← implemented.mapM (fun t => r.type (t.map .known))
    modifyMember h (fun c => { c with implements := some (types.map some) })
  fillStatics cx r symbol h (← orFault (cx.propertiesOf (some static)))

end ApiReference.Build
