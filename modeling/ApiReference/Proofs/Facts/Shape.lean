/-
  The shape of a type, read off the facts.

  What the record of a type shows is settled by the type alone: its alias and flags decide the kind,
  and the facts name the symbols and types that stand in each of its places.  A shape is that record
  before there are records, with symbols and types where the record has handles.

  1. `Part`, `TypeShape`   -- the places of a record, and what stands there;
  2. `Facts.takenFrom`     -- types that have no shape of their own;
  3. signatures and objects;
  4. `Context.shape`       -- all types.
-/
import ApiReference.Build.Types

namespace ApiReference

/-! ## 1. Shapes -/

/-- **What stands in a place that the facts may leave empty.** -/
inductive Part where
  /-- a type -/
  | of (t : Option TypeRef)
  /-- nothing: the place shows an error -/
  | missing
  /-- the alias of a type, as a reference to it -/
  | aliasOf (t : TypeRef) (symbol : SymbolId)
deriving DecidableEq, Repr

/-- A type, or an error where there is none. -/
def Part.orMissing : Option TypeId → Part
  | some t => .of (some (.known t))
  | none => .missing

/-- A piece of a template literal. -/
inductive Piece where
  | text (s : String)
  | type (t : Option TypeRef)
deriving DecidableEq, Repr

/-- **What the record of a type shows**, in terms of the facts. -/
structure TypeShape where
  kind : TypeKind
  name : Option String := none
  value : Option String := none
  member : Option SymbolId := none
  pieces : Option (List Piece) := none
  target : Option Part := none
  typeArguments : Option (List (Option TypeRef)) := none
  element : Option (Option TypeRef) := none
  elements : Option (List (Option TypeRef)) := none
  key : Option Part := none
  operands : Option (List (Option TypeRef)) := none
  signature : Option SignatureId := none
  typeParameters : Option (List (Option TypeId)) := none
  parameters : Option (List (Option SymbolId)) := none
  returnType : Option (Option TypeRef) := none
  members : Option (List (Option SymbolId)) := none
  checkType : Option Part := none
  extendsType : Option Part := none
  expansion : Option Expansion := none
  branches : Option Branches := none
deriving Repr

/-! ## 2. Types without a shape of their own -/

namespace Facts

variable (f : Facts)

/-- What an optional wrapper holds, or the base of a substitution. -/
def collapsed (t : TypeRef) : Option TypeRef :=
  let flags := (f.type t).flags
  if flags.meets TypeFlags.unionsAndIntersections then
    if f.stripOptional t ≠ t then some (f.stripOptional t) else none
  else if flags.meets TypeFlags.typeParameters || flags.meets TypeFlags.indexedAccesses
    || flags.meets TypeFlags.keyQueries || flags.meets TypeFlags.conditionals
    || flags.meets TypeFlags.uniqueSymbols then none
  else if flags.meets TypeFlags.substitutions then (f.type t).baseType.map .known
  else none

/-- The rules for object types fit. -/
def isObject (t : TypeRef) : Bool :=
  let flags := (f.type t).objectFlags
  (f.type t).flags.meets TypeFlags.objects && (flags.meets ObjectFlags.classesAndInterfaces
    || flags.meets ObjectFlags.references || flags.meets ObjectFlags.anonymous)

/-- Without regard to an alias, if no rule before fits. -/
def unaliasedFrom (t : TypeRef) : Option TypeRef :=
  let flags := (f.type t).flags
  if flags.meets TypeFlags.intrinsics || flags.meets TypeFlags.enumLike
    || flags.meets TypeFlags.numberLiterals || flags.meets TypeFlags.stringLiterals
    || flags.meets TypeFlags.bigintLiterals || f.isObject t then none
  else f.collapsed t

/-- **The type whose record a type takes over**: what an optional wrapper holds, or the base of a
    substitution, if no rule before it fits. -/
def takenFrom (t : TypeRef) : Option TypeRef :=
  match (f.type t).aliasSymbol with
  | some _ => none
  | none => f.unaliasedFrom t

end Facts

/-! ## 3. Signatures and objects -/

/-- The types of a list, as keys of records. -/
def typeKeys (ts : List (Option TypeId)) : List (Option TypeRef) := ts.map (·.map .known)

namespace TypeShape

/-- A reference to the symbol of a type. -/
def reference (facts : TypeFacts) (kind : TypeKind) : TypeShape := { kind, member := facts.symbol }

/-- A literal. -/
def literal (facts : TypeFacts) (kind : TypeKind) : TypeShape :=
  { kind, value := some facts.value.text }

end TypeShape

namespace Context

variable (cx : Context)

open Build

/-- A signature; no type parameters at all leave their place empty. -/
def signatureShape (kind : TypeKind) (signature : Option SignatureId) : Except Fault TypeShape := do
  let sig := cx.facts.signature (← present signature)
  return {
    kind, signature
    typeParameters := if sig.typeParameters.isEmpty then none else some sig.typeParameters
    parameters := some sig.parameters
    returnType := some (some (.orError sig.returnType)) }

/-- **The members of an anonymous object**: constructor and call before the properties, the index
    after them. -/
def objectMembers (t : TypeRef) (properties : List (Option SymbolId)) :
    Except Fault (List (Option SymbolId)) := do
  let index ← cx.facts.ownMember (some t) Facts.indexName
  let call ← cx.facts.ownMember (some t) Facts.callName
  let constructor ← ownConstructor cx t
  return (constructor.toList ++ call.toList).map some ++ properties ++ index.toList.map some

/-- A reference to a generic type. -/
def genericShape (facts : TypeFacts) : TypeShape :=
  if cx.facts.isArrayType facts then
    { kind := .array, element := some (Facts.elementType facts) }
  else if cx.facts.isTupleType facts then
    { kind := .tuple, elements := some (typeKeys facts.typeArguments) }
  else
    { kind := .genericInstantiation, target := some (.orMissing facts.target)
      typeArguments := some (typeKeys facts.typeArguments) }

/-- A type with these properties: a bare signature, or an object. -/
def structureShape (t : TypeRef) (facts : TypeFacts) (properties : List (Option SymbolId)) :
    Except Fault TypeShape :=
  let bare := properties.isEmpty && !(facts.stringIndex || facts.numberIndex)
  match bare, facts.callSignatures, facts.constructSignatures with
  | true, [call], [] => cx.signatureShape .functionSignature call
  | true, [], [construct] => do
    return { ← cx.signatureShape .constructorSignature construct with typeParameters := none }
  | _, _, _ => do
    return { kind := .anonymousObject, members := some (← cx.objectMembers t properties) }

/-- An anonymous type. -/
def unnamedShape (t : TypeRef) (facts : TypeFacts) : Except Fault TypeShape :=
  match typeQuery? cx facts with
  | some s => .ok { kind := .typeOf, member := some s }
  | none => do cx.structureShape t facts (← cx.facts.propertiesOf (some t))

/-- An object type, if a rule for object types fits. -/
def objectShape? (t : TypeRef) (facts : TypeFacts) : Option (Except Fault TypeShape) :=
  let flags := facts.objectFlags
  if flags.meets ObjectFlags.classesAndInterfaces then
    some (.ok (.reference facts (if flags.meets ObjectFlags.classes then .classRef else .interfaceRef)))
  else if flags.meets ObjectFlags.references then some (.ok (cx.genericShape facts))
  else if flags.meets ObjectFlags.anonymous then some (cx.unnamedShape t facts)
  else none

/-! ## 4. All types -/

/-- The pieces of a template literal: texts and types in turn, and the text that is left over. -/
def pieces : List String → List (Option TypeId) → List Piece
  | [], _ => []
  | text :: texts, [] => [.text ((text :: texts).getLastD text)]
  | text :: texts, t :: ts => .text text :: .type (t.map .known) :: pieces texts ts

/-- The types that come after objects in the order of rules. -/
def otherShape (t : TypeRef) (facts : TypeFacts) : TypeShape :=
  let flags := facts.flags
  if flags.meets TypeFlags.unionsAndIntersections then
    { kind := if flags.meets TypeFlags.unions then .union else .intersection
      operands := some (typeKeys facts.types) }
  else if flags.meets TypeFlags.typeParameters then
    .reference facts (if facts.thisType then .thisRef else .typeParameterRef)
  else if flags.meets TypeFlags.indexedAccesses then
    { kind := .indexedAccess, target := some (.orMissing facts.objectType)
      key := some (.orMissing facts.indexType) }
  else if flags.meets TypeFlags.keyQueries then
    { kind := .keyOf, target := some (.orMissing facts.target) }
  else if flags.meets TypeFlags.conditionals then
    { kind := .conditional, checkType := some (.orMissing facts.checkType)
      extendsType := some (.orMissing facts.extendsType), branches := some (.ofType t) }
  else if flags.meets TypeFlags.uniqueSymbols then { kind := .native, name := some "unique symbol" }
  else if flags.meets TypeFlags.templateLiterals then
    { kind := .templateLiteral, pieces := some (pieces facts.texts facts.types) }
  else { kind := .unknown }

/-- The shape without regard to an alias, by the first rule that the flags satisfy. -/
def unaliasedShape (t : TypeRef) : Except Fault TypeShape :=
  let facts := cx.facts.type t
  let flags := facts.flags
  if flags.meets TypeFlags.intrinsics then
    if facts.intrinsicName = "error" then .ok { kind := .error }
    else .ok { kind := .native, name := some (if facts.intrinsicName = "" then cx.facts.typeText t
                                              else facts.intrinsicName) }
  else if flags.meets TypeFlags.enumLike then
    .ok (.reference facts (if flags.meets TypeFlags.enums then .enumRef else .enumMemberRef))
  else if flags.meets TypeFlags.numberLiterals then .ok (.literal facts .numberLiteral)
  else if flags.meets TypeFlags.stringLiterals then .ok (.literal facts .stringLiteral)
  else if flags.meets TypeFlags.bigintLiterals then .ok (.literal facts .bigintLiteral)
  else if flags.meets TypeFlags.objects then
    (cx.objectShape? t facts).getD (.ok (otherShape t facts))
  else .ok (otherShape t facts)

/-- **The shape of a type.**  An alias with arguments is an instantiation of a reference to it. -/
def shape (t : TypeRef) : Except Fault TypeShape :=
  let facts := cx.facts.type t
  match facts.aliasSymbol with
  | none => cx.unaliasedShape t
  | some alias_ =>
    if facts.aliasTypeArguments.isEmpty then
      .ok { kind := .aliasRef, member := some alias_, expansion := some (.ofType t) }
    else
      .ok { kind := .genericInstantiation, target := some (.aliasOf t alias_)
            typeArguments := some (typeKeys facts.aliasTypeArguments) }

end Context

end ApiReference
