/-
  A model with everything that reads it.

  1. `Workspace`          -- facts, settings, style and the store of records;
  2. `MemberChoice`, `TypeChoice` -- a record named by its symbol or type, or by its handle;
  3. `Request`, `Answer`  -- what can be asked of a model;
  4. `Workspace.answer`   -- the answers; a fault keeps what was built before it.
-/
import ApiReference.Build.Requests

namespace ApiReference

/-! ## 1. Workspaces -/

/-- **A model and what it is built from.** -/
structure Workspace where
  context : Context
  style : Style
  config : Value
  store : Store := {}

/-- A workspace over linked facts; a configuration that cannot be read is a fault. -/
def Workspace.ofFacts (facts : Facts) (config : Option Value) (host : Host) :
    Except Fault Workspace := do
  let config := config.getD defaultConfig
  let settings ← Settings.ofConfig host config
  return { context := { facts, settings, host }
           style := { limits := settings.limits, rawText := facts.recordText }
           config }

/-- **A build in a workspace**: its outcome and the workspace after it. -/
def Workspace.run {α : Type} (w : Workspace) (action : Build α) : Except Fault α × Workspace :=
  let (result, store) := action.run w.store
  (result, { w with store })

/-! ## 2. Choosing records -/

/-- A member record: of a symbol, or by a handle counted from either end. -/
inductive MemberChoice where
  | symbol (id : String)
  | handle (i : Int)
deriving Repr, Inhabited

/-- A type record: of a type, or by a handle counted from either end. -/
inductive TypeChoice where
  | type (id : String)
  | handle (i : Int)
deriving Repr, Inhabited

namespace Facts

/-- A declared symbol. -/
def declaredSymbol (f : Facts) (id : String) : Except Fault SymbolId :=
  if (f.symbols.lookup id).isSome then .ok ⟨id⟩ else .error .missingKey

/-- A declared type. -/
def declaredType (f : Facts) (id : String) : Except Fault TypeId :=
  if (f.types.lookup id).isSome then .ok ⟨id⟩ else .error .missingKey

/-- A declared declaration. -/
def declaredDeclaration (f : Facts) (id : String) : Except Fault DeclarationId :=
  if (f.declarations.lookup id).isSome then .ok ⟨id⟩ else .error .missingKey

/-- A declared signature. -/
def declaredSignature (f : Facts) (id : String) : Except Fault SignatureId :=
  if (f.signatures.lookup id).isSome then .ok ⟨id⟩ else .error .missingKey

end Facts

namespace Build

/-- The chosen member record. -/
def chooseMember (cx : Context) : MemberChoice → Build MemberHandle
  | .symbol id => do symbolMember cx (← orFault (cx.facts.declaredSymbol id))
  | .handle i => do
    match Registry.position? (← get).members.size i with
    | some h => return ⟨h⟩
    | none => throw .outOfRange

/-- The chosen type record. -/
def chooseType (cx : Context) : TypeChoice → Build TypeHandle
  | .type id => do typeRecord cx (.known (← orFault (cx.facts.declaredType id)))
  | .handle i => do
    match Registry.position? (← get).types.size i with
    | some h => return ⟨h⟩
    | none => throw .outOfRange

end Build

/-! ## 3. Requests and answers -/

/-- **What can be asked of a model.** -/
inductive Request where
  | member (c : MemberChoice)
  | type (c : TypeChoice)
  | render (c : TypeChoice)
  /-- the rendered text, and the checker's own -/
  | text (c : TypeChoice)
  | properties (c : TypeChoice)
  | expand (c : TypeChoice)
  | branches (c : TypeChoice)
  | alias_ (c : MemberChoice)
  | group (c : MemberChoice)
  | ancestor (c : MemberChoice)
  | dump (c : MemberChoice)
  | memberForm (c : MemberChoice)
  | typeForm (c : TypeChoice)
  | cachedMember (id : String)
  | cachedType (id : String)
  | counts
  | warnings
  | arena
deriving Repr, Inhabited

/-- **What a model answers**; records are named by handle. -/
inductive Answer where
  | value (v : Value)
  | member (h : MemberHandle)
  | type (h : TypeHandle)
  | unit (h : UnitHandle)
  | units (hs : List UnitHandle)
  | members (hs : List MemberHandle)
  | someMember (h : Option MemberHandle)
  | someType (h : Option TypeHandle)
  | rendered (text : String) (tokens : List Token)
  | branches (yes no : Option TypeHandle)
  | view (v : ClassView)
  | arena
deriving Inhabited

namespace Answer

/-- A text. -/
def text (s : String) : Answer := .value (.str s)

/-- A record found in a registry: whether it is there, and its handle. -/
def found (h : Option Nat) : Answer :=
  .value (.list [.bool h.isSome, match h with
    | some h => .int h
    | none => .null])

end Answer

/-! ## 4. Answers -/

/-- The declaration that documents a function with the given ones. -/
def Workspace.documenting (w : Workspace) : List DeclarationId → Except Fault DeclarationId
  | [] => .error .outOfRange
  | d :: ds => .ok (Build.pickCanonical w.context d ds)

open Build in
/-- **The answer to a request.** -/
def Workspace.answer (w : Workspace) : Request → Build Answer
  | .member c => return .member (← chooseMember w.context c)
  | .type c => return .type (← chooseType w.context c)
  | .render c => do
    let h ← chooseType w.context c
    let tokens ← settled w.context (w.style.tokens · (some h))
    return .rendered (← orFault (Token.visibleText tokens)) tokens
  | .text c => do
    let h ← chooseType w.context c
    let text ← settled w.context (w.style.text · (some h))
    return .value (.list [.str text, .str (w.style.rawText (← type h))])
  | .properties c => do return .members (← propertiesOf w.context (← chooseType w.context c))
  | .expand c => do return .someType (← expansion w.context (← chooseType w.context c))
  | .branches c => do
    match ← branches w.context (← chooseType w.context c) with
    | some (yes, no) => return .branches yes no
    | none => return .branches none none
  | .alias_ c => do return .someType (← aliasedType w.context (← chooseMember w.context c))
  | .group c => do
    let h ← chooseMember w.context c
    return .view (← orFault (groupMembers (← get).toModel h))
  | .ancestor c => do
    let h ← chooseMember w.context c
    return .someMember (declaringAncestor (← get).toModel h)
  | .dump c => do
    let output ← orFault (Output.ofConfig w.config)
    let h ← chooseMember w.context c
    return .value (← settled w.context (fun m => Dump.member w.style m output h))
  | .memberForm c => do return .text (← member (← chooseMember w.context c)).shortForm
  | .typeForm c => do
    let h ← chooseType w.context c
    let m := (← get).toModel
    return .text (m.typeShortForm (m.type h))
  | .cachedMember id => do
    return .found ((← get).members.find? (some (← orFault (w.context.facts.declaredSymbol id))))
  | .cachedType id => do
    return .found ((← get).types.find?
      (some (.known (← orFault (w.context.facts.declaredType id)))))
  | .counts => do
    let s ← get
    return .value (.list [.int s.members.size, .int s.types.size, .int s.units.size])
  | .warnings => do return .value (Dump.texts (← get).warnings)
  | .arena => return .arena

end ApiReference
