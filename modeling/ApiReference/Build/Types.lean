/-
  Turning the checker's types into type expressions.

  The flags of a type decide its shape.  Rules are tried in a fixed order, and parts are asked for in
  the order in which the facts list them.

  1. parts          -- the record of a part, or an error record where it is missing;
  2. `fillObject`   -- classes, references, type queries, signatures, anonymous objects;
  3. `fillUnaliased`;
  4. `fillTypeExpr` -- a type with an alias is a reference to it, expanded on first use.
-/
import ApiReference.Build.Fields

namespace ApiReference.Build

variable (cx : Context) (r : Requests)

/-! ## 1. Parts -/

/-- The records of several types. -/
def typeList (ts : List (Option TypeId)) : Build (List (Option TypeHandle)) :=
  ts.mapM (fun t => return some (← r.type (t.map .known)))

/-- The record of a part; a missing part has an error record of its own. -/
def typeOrError (t : Option TypeId) : Build TypeHandle := do
  match t with
  | some t => r.type (some (.known t))
  | none =>
    let h ← newType
    modifyType h (fun e => { e with kind := .error })
    complete (.type h)
    return h

/-- The member of a type's symbol. -/
def memberOf (t : TypeFacts) : Build (Option MemberHandle) := do
  match t.symbol with
  | none => return none
  | some s => return some (← r.member (some s))

/-- A reference to the member of the type's symbol, in some shape. -/
def fillReference (t : TypeFacts) (kind : TypeKind) (h : TypeHandle) : Build PUnit := do
  modifyType h (fun e => { e with kind })
  let member ← memberOf r t
  modifyType h (fun e => { e with member })

/-! ## 2. Object types -/

/-- A signature: its type parameters, parameters and result. -/
def fillTypeSignature (signature : Option SignatureId) (h : TypeHandle) : Build PUnit := do
  modifyType h (fun e => { e with signature })
  let sig := cx.facts.signature (← orFault (present signature))
  let generics ← typeParameters cx r sig.typeParameters
  modifyType h (fun e => { e with typeParameters := generics })
  let ps ← sig.parameters.mapM (parameter cx r)
  modifyType h (fun e => { e with parameters := some ps })
  let result ← r.type (some (.orError sig.returnType))
  modifyType h (fun e => { e with returnType := some result })

/-- The member of a type found by name, if there is one. -/
def foundMember (found : Option SymbolId) : Build (List MemberHandle) := do
  match found with
  | none => return []
  | some s => return [← r.member (some s)]

/-- The constructor in a type's own table. -/
def ownConstructor (t : TypeRef) : Except Fault (Option SymbolId) := do
  match ← cx.facts.ownMember (some t) Facts.constructorName with
  | some s => return some s
  | none => cx.facts.ownMember (some t) Facts.newName

/-- An anonymous object: constructor, call, properties, index. -/
def fillAnonymous (t : TypeRef) (properties : List (Option SymbolId)) (h : TypeHandle) :
    Build PUnit := do
  let f := cx.facts
  modifyType h (fun e => { e with kind := .anonymousObject })
  let members ← properties.mapM r.member
  let index ← foundMember r (← orFault (f.ownMember (some t) Facts.indexName))
  let call ← foundMember r (← orFault (f.ownMember (some t) Facts.callName))
  let constructor ← foundMember r (← orFault (ownConstructor cx t))
  modifyType h (fun e =>
    { e with members := some ((constructor ++ call ++ members ++ index).map some) })

/-- Can the type be shown as a query of its symbol? -/
def typeQuery? (t : TypeFacts) : Option SymbolId :=
  let f := cx.facts
  match t.symbol with
  | none => none
  | some s =>
    let flags := (f.symbol s).flags
    match f.valueDeclaration s with
    | none => none
    | some d =>
      if flags.meets SymbolFlags.typeQueries && !flags.meets SymbolFlags.valueModules
        && (f.declaration d).name.isTrue then some s else none

/-- A reference to a generic type: an array, a tuple, or an instantiation. -/
def fillGeneric (facts : TypeFacts) (h : TypeHandle) : Build PUnit := do
  let f := cx.facts
  if f.isArrayType facts then
    modifyType h (fun e => { e with kind := .array })
    let element ← r.type (Facts.elementType facts)
    modifyType h (fun e => { e with element := some element })
  else if f.isTupleType facts then
    modifyType h (fun e => { e with kind := .tuple })
    let elements ← typeList r facts.typeArguments
    modifyType h (fun e => { e with elements := some elements })
  else
    modifyType h (fun e => { e with kind := .genericInstantiation })
    let target ← typeOrError r facts.target
    modifyType h (fun e => { e with target := some target })
    let arguments ← typeList r facts.typeArguments
    modifyType h (fun e => { e with typeArguments := some arguments })

/-- An anonymous type: a query of its symbol, a bare signature, or an object. -/
def fillUnnamed (t : TypeRef) (facts : TypeFacts) (h : TypeHandle) : Build PUnit := do
  match typeQuery? cx facts with
  | some s =>
    modifyType h (fun e => { e with kind := .typeOf })
    let member ← r.member (some s)
    modifyType h (fun e => { e with member := some member })
  | none =>
    let properties ← orFault (cx.propertiesOf (some t))
    let bare := properties.isEmpty && !(facts.stringIndex || facts.numberIndex)
    match bare, facts.callSignatures, facts.constructSignatures with
    | true, [call], [] =>
      modifyType h (fun e => { e with kind := .functionSignature })
      fillTypeSignature cx r call h
    | true, [], [construct] =>
      modifyType h (fun e => { e with kind := .constructorSignature })
      fillTypeSignature cx r construct h
      modifyType h (fun e => { e with typeParameters := none })
    | _, _, _ => fillAnonymous cx r t properties h

/-- **An object type**; `false` when no rule for object types fits. -/
def fillObject (t : TypeRef) (facts : TypeFacts) (h : TypeHandle) : Build Bool := do
  let flags := facts.objectFlags
  if flags.meets ObjectFlags.classesAndInterfaces then
    fillReference r facts
      (if flags.meets ObjectFlags.classes then .classRef else .interfaceRef) h
    return true
  else if flags.meets ObjectFlags.references then
    fillGeneric cx r facts h
    return true
  else if flags.meets ObjectFlags.anonymous then
    fillUnnamed cx r t facts h
    return true
  else return false

/-! ## 3. All types -/

/-- A literal type. -/
def fillLiteral (facts : TypeFacts) (kind : TypeKind) (h : TypeHandle) : Build PUnit :=
  modifyType h (fun e => { e with kind, value := some facts.value.text })

/-- The pieces of a template literal: texts and types in turn, and the text that is left over. -/
def templateSpans : List String → List (Option TypeId) → Build (List Span)
  | [], _ => return []
  | text :: texts, [] => return [.text ((text :: texts).getLastD text)]
  | text :: texts, t :: ts => do
    let h ← r.type (t.map .known)
    return .text text :: .type (some h) :: (← templateSpans texts ts)

/-- A record takes over the record of another type. -/
def fillFrom (source : TypeRef) (h : TypeHandle) : Build PUnit := do
  let s ← r.type (some source)
  let record ← type s
  modifyType h (·.takeOver record)

/-- The types that come after objects in the order of rules. -/
def fillOther (t : TypeRef) (facts : TypeFacts) (h : TypeHandle) : Build PUnit := do
  let f := cx.facts
  let flags := facts.flags
  if flags.meets TypeFlags.unionsAndIntersections then
    if f.stripOptional t ≠ t then fillFrom r (f.stripOptional t) h
    else
      modifyType h (fun e =>
        { e with kind := if flags.meets TypeFlags.unions then .union else .intersection })
      let operands ← typeList r facts.types
      modifyType h (fun e => { e with operands := some operands })
  else if flags.meets TypeFlags.typeParameters then
    fillReference r facts (if facts.thisType then .thisRef else .typeParameterRef) h
  else if flags.meets TypeFlags.indexedAccesses then
    modifyType h (fun e => { e with kind := .indexedAccess })
    let target ← typeOrError r facts.objectType
    modifyType h (fun e => { e with target := some target })
    let key ← typeOrError r facts.indexType
    modifyType h (fun e => { e with key := some key })
  else if flags.meets TypeFlags.keyQueries then
    modifyType h (fun e => { e with kind := .keyOf })
    let target ← typeOrError r facts.target
    modifyType h (fun e => { e with target := some target })
  else if flags.meets TypeFlags.conditionals then
    modifyType h (fun e => { e with kind := .conditional })
    let check ← typeOrError r facts.checkType
    modifyType h (fun e => { e with checkType := some check })
    let extended ← typeOrError r facts.extendsType
    modifyType h (fun e => { e with extendsType := some extended, branches := some (.ofType t) })
  else if flags.meets TypeFlags.uniqueSymbols then
    modifyType h (fun e => { e with kind := .native, name := some "unique symbol" })
  else match flags.meets TypeFlags.substitutions, facts.baseType with
    | true, some base => fillFrom r (.known base) h
    | _, _ =>
      if flags.meets TypeFlags.templateLiterals then
        modifyType h (fun e => { e with kind := .templateLiteral })
        let spans ← templateSpans r facts.texts facts.types
        modifyType h (fun e => { e with spans := some spans })
      else modifyType h (fun e => { e with kind := .unknown })

/-- **A type record without regard to an alias**, filled by the first rule that its flags
    satisfy. -/
def fillUnaliased (t : TypeRef) (h : TypeHandle) : Build PUnit := do
  let facts := cx.facts.type t
  let flags := facts.flags
  modifyType h (fun e => { e with raw := some t })
  if flags.meets TypeFlags.intrinsics then
    modifyType h (fun e =>
      if facts.intrinsicName = "error" then { e with kind := .error }
      else { e with kind := .native
                    name := some (if facts.intrinsicName = "" then cx.facts.typeText t
                                  else facts.intrinsicName) })
  else if flags.meets TypeFlags.enumLike then
    fillReference r facts (if flags.meets TypeFlags.enums then .enumRef else .enumMemberRef) h
  else if flags.meets TypeFlags.numberLiterals then fillLiteral facts .numberLiteral h
  else if flags.meets TypeFlags.stringLiterals then fillLiteral facts .stringLiteral h
  else if flags.meets TypeFlags.bigintLiterals then fillLiteral facts .bigintLiteral h
  else if flags.meets TypeFlags.objects then
    if ← fillObject cx r t facts h then pure ()
    else fillOther cx r t facts h
  else fillOther cx r t facts h

/-! ## 4. Aliases -/

/-- A reference to the alias of a type. -/
def fillAliasRef (t : TypeRef) (alias_ : SymbolId) (h : TypeHandle) : Build PUnit := do
  modifyType h (fun e => { e with kind := .aliasRef, raw := some t })
  let member ← r.member (some alias_)
  modifyType h (fun e => { e with member := some member, expansion := some (.ofType t) })

/-- **The record of a type.**  An alias with arguments is an instantiation of a reference to it. -/
def fillTypeExpr (key : Option TypeRef) (h : TypeHandle) : Build PUnit := do
  let t ← orFault (present key)
  let facts := cx.facts.type t
  match facts.aliasSymbol with
  | none => fillUnaliased cx r t h
  | some alias_ =>
    if facts.aliasTypeArguments.isEmpty then fillAliasRef r t alias_ h
    else
      modifyType h (fun e => { e with kind := .genericInstantiation, raw := some t })
      let arguments ← typeList r facts.aliasTypeArguments
      modifyType h (fun e => { e with typeArguments := some arguments })
      let target ← newType
      modifyType h (fun e => { e with target := some target })
      fillAliasRef r t alias_ target
      complete (.type target)

end ApiReference.Build
