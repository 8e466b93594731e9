/-
  What the fillings of all member kinds share.

  1. `Context`          -- the facts, the settings and the host of a build, and its walks along bases;
  2. declarations       -- the first of a kind, the best documented one;
  3. `linkOverridden`   -- the base member that a member overrides;
  4. `fillBase`         -- name, id, visibility, modifiers, documentation, parent;
  5. parameters and type parameters.
-/
import ApiReference.Build.Store
import ApiReference.Facts.Query
import ApiReference.Model.Tags
import ApiReference.Settings

namespace ApiReference

/-! ## 1. Context -/

/-- **What a build works from.** -/
structure Context where
  facts : Facts
  settings : Settings
  host : Host

namespace Context

/-- A build without facts. -/
def blank : Context := ⟨{}, ⟨fun _ => false, true, {}⟩, .plain⟩

variable (cx : Context)

/-- **How deep a build walks along base types**: as deep as the call stack holds, which need be no
    deeper than a walk goes without repeating itself. -/
def walkDepth : Nat := min cx.host.steps cx.facts.baseDepth

/-- The properties of a type, its own first, as far as the call stack holds the walk. -/
def propertiesOf (t : Option TypeRef) : Except Fault (List (Option SymbolId)) :=
  cx.facts.propertiesWithin cx.walkDepth t

/-- A member of a type by name, or of its base types, as far as the call stack holds the walk. -/
def lookupMember (t : Option TypeRef) (name : String) : Except Fault (Option SymbolId) :=
  cx.facts.lookupWithin name cx.walkDepth t

end Context

namespace Build

variable (cx : Context) (r : Requests)

/-! ## 2. Declarations -/

/-- The first declaration that satisfies `p`; a missing one before it is a fault. -/
def firstDeclaration? (p : DeclarationFacts → Bool) :
    List (Option DeclarationId) → Except Fault (Option DeclarationId)
  | [] => .ok none
  | none :: _ => .error .noField
  | some d :: rest => if p (cx.facts.declaration d) then .ok (some d) else firstDeclaration? p rest

/-- The declarations that satisfy `p`; a missing one is a fault. -/
def declarationsWith (p : DeclarationFacts → Bool) (ds : List (Option DeclarationId)) :
    Except Fault (List DeclarationId) := do
  return (← ds.mapM present).filter (fun d => p (cx.facts.declaration d))

/-- **The position of the longest comment**, the first of several. -/
def longestComment : List Int → Option Nat
  | [] => none
  | n :: rest =>
    let step := fun (best : Nat × Int × Nat) (l : Int) =>
      let (i, longest, next) := best
      if longest < l then (next, l, next + 1) else (i, longest, next + 1)
    some (rest.foldl step (0, n, 1)).1

/-- The declaration with the longest comment. -/
def bestDeclaration (ds : List DeclarationId) : Option DeclarationId :=
  (longestComment (ds.map (fun d => (cx.facts.declaration d).commentLength))).bind (ds[·]?)

/-! ## 3. Overridden members -/

/-- Links a member to the first base member by its name that is not private, and takes over the
    documentation that the member lacks. -/
def linkOverridden (symbol parent : SymbolId) (h : MemberHandle) : Build PUnit := do
  let f := cx.facts
  if (f.symbol parent).flags.meets SymbolFlags.classesAndInterfaces then
    match (f.symbol parent).declaredType with
    | none => pure ()
    | some t => go (f.type (.known t)).baseTypes
where
  /-- the base types still to try -/
  go : List (Option TypeId) → Build PUnit
    | [] => pure ()
    | base :: rest => do
      let f := cx.facts
      match ← orFault (cx.lookupMember (base.map .known) (f.symbol symbol).escapedName) with
      | none => go rest
      | some s =>
        if s = symbol then go rest
        else
          let b ← r.member (some s)
          let overridden ← member b
          if overridden.has .private_ then go rest
          else modifyMember h (fun c =>
            { c with overrides := some b, docs := c.docs.backfill overridden.docs })

/-! ## 4. Common fields -/

/-- What the declaration and the symbol say about a member's identity: set before anything can
    fail. -/
def identify (symbol : SymbolId) (declaration : Option DeclarationId) (kind : MemberKind)
    (c : Member) : Member :=
  let f := cx.facts
  let d := (declaration.map f.declaration).getD {}
  let exported := d.modifiers.meets SyntaxFlags.exports
  { c with
    kind
    raw := some symbol
    declaration := match declaration with
      | some d => some d
      | none => c.declaration
    location := match declaration with
      | some _ => d.location
      | none => c.location
    name := if exported && d.name.isTrue then d.name else f.symbolName symbol
    id := f.symbolId symbol
    modifiers := (c.modifiers.insertIf exported .export_).insertIf
      (exported && d.modifiers.meets SyntaxFlags.defaults) .exportDefault }

/-- The visibility that a declaration states, else the one its name implies. -/
def declaredAccess (d : DeclarationFacts) (name : String) : Modifier :=
  if d.modifiers.meets SyntaxFlags.protecteds then .protected_
  else if d.modifiers.meets SyntaxFlags.privates || d.privateName then .private_
  else if d.modifiers.meets SyntaxFlags.publics then .public_
  else defaultAccessibility name

/-- The modifiers that a declaration and a symbol state, visibility apart. -/
def writtenModifiers (d : DeclarationFacts) (flags : SymbolFlags) (ms : Modifiers) : Modifiers :=
  (((ms.insertIf (d.modifiers.meets SyntaxFlags.statics) .static).insertIf
    (d.modifiers.meets SyntaxFlags.readonlyOrConst) .readOnly).insertIf
    (d.modifiers.meets SyntaxFlags.abstracts) .abstract_).insertIf
    (flags.meets SymbolFlags.optionals) .optional

/-- A text that counts as set. -/
def nonEmpty (s : String) : Option String := if s = "" then none else some s

/-- The comment folded into a member, and the visibility added last. -/
def document (d : DeclarationFacts) (flags : SymbolFlags) (comment : Comment) (name : String)
    (c : Member) : Member :=
  let c := { c with
    modifiers := writtenModifiers d flags c.modifiers
    docs := { c.docs with summary := nonEmpty comment.text } }
  let (c, access) := c.applyTags comment.tags (declaredAccess d name)
  c.mark access

/-- **The fields every member has.**  The comment is that of the signature for functions, else that
    of the symbol.  A name that is no text is a fault, and leaves the member named so far. -/
def fillBase (comment : Comment) (symbol : SymbolId) (declaration : Option DeclarationId)
    (kind : MemberKind) (h : MemberHandle) : Build PUnit := do
  let f := cx.facts
  modifyMember h (identify cx symbol declaration kind)
  match (← member h).name with
  | .str name =>
    let d := (declaration.map f.declaration).getD {}
    modifyMember h (document d (f.symbol symbol).flags comment name)
    match f.parentOf symbol with
    | none => pure ()
    | some parent =>
      let p ← r.member (some parent)
      modifyMember h (fun c => { c with parent := some p })
      linkOverridden cx r symbol parent h
  | _ => throw .noField

/-! ## 5. Parameters -/

/-- **The record of a parameter.** -/
def parameter (symbol : Option SymbolId) : Build Parameter := do
  let f := cx.facts
  let s ← orFault (present symbol)
  let d := ((f.valueDeclaration s).map f.declaration).getD {}
  let type ← r.type (some (f.typeOfSymbol s))
  let initializer := d.initializer.toOption
  return {
    name := f.symbolName s
    type := some type
    summary := nonEmpty (f.symbol s).comment.text
    rest := d.rest
    optional := d.question || initializer.isSome
    defaultValue := initializer
    raw := some s }

/-- The record of an optional type. -/
def optionalType (t : Option TypeId) : Build (Option TypeHandle) :=
  match t with
  | none => return none
  | some t => return some (← r.type (some (.known t)))

/-- **The record of a type parameter.** -/
def typeParameter (t : Option TypeId) : Build TypeParameter := do
  let f := cx.facts
  let t ← orFault (present t)
  let facts := f.type (.known t)
  let constraint ← optionalType r facts.constraint
  let default ← optionalType r facts.default
  return {
    name := match facts.symbol with
      | some s => (f.symbol s).name
      | none => f.typeText (.known t)
    summary := facts.symbol.bind (fun s => nonEmpty (f.symbol s).comment.text)
    constraint, default
    raw := some (.known t) }

/-- Type parameters; none at all leave the field unset. -/
def typeParameters (ts : List (Option TypeId)) : Build (Option (List TypeParameter)) :=
  match ts with
  | [] => return none
  | ts => return some (← ts.mapM (typeParameter cx r))

end Build

end ApiReference
