/-
  Linking a fact document.

  The document declares each record once under an id; every other place refers to that id.  Linking
  reads every field by its rule and checks every reference against the declared ids, so that ids may
  be used before they are declared and cycles load like anything else.

  Sections are read in a fixed order (types, declarations, signatures, symbols, units), each in its
  written order and each record field by field, so of several faults the first one is reported.

  1. `Declared`    -- the declared ids of a section;
  2. `reference`, `references`, `tags` -- the rules for reference and tag fields;
  3. `linkType` ... `linkUnit`, `Facts.link` -- the records and the document.
-/
import ApiReference.Facts.Basic

namespace ApiReference

namespace Link

/-! ## 1. Declared ids -/

/-- **The ids each section declares.** -/
structure Declared where
  symbols : List String
  declarations : List String
  signatures : List String
  types : List String

/-- The keys of a section.  A text or list stands for its elements; numbers among them are keys that
    no reference spells, lists and maps are no keys. -/
def sectionKeys (v : Value) : Except Fault (List String) := do
  let keys ← v.elements
  keys.foldrM (fun k ks => match k with
    | .str s => .ok (s :: ks)
    | .list _ => .error .notAKey
    | .map _ => .error .notAKey
    | _ => .ok ks) []

/-! ## 2. Field rules -/

/-- **A reference field**: `null` refers to nothing, anything else to the id that is its text. -/
def reference (table : Section) (ids : List String) (key : Value) :
    Except Fault (Option String) :=
  match key with
  | .null => .ok none
  | v => if ids.contains v.text then .ok (some v.text) else .error (.unknownReference table v.text)

/-- **A field with several references**: a list, or a single reference in place of one. -/
def references (table : Section) (ids : List String) (keys : Value) :
    Except Fault (List (Option String)) :=
  if keys.isTrue then
    match keys with
    | .list ks => ks.mapM (reference table ids)
    | k => do return [← reference table ids k]
  else .ok []

/-- The tags of one entry of a tag field. -/
def tagsOfEntry : Value → List Tag
  | .map es => match Value.lookup "name" es with
    | some n => [⟨n.text, ((Value.lookup "text" es).getD .null).textOrEmpty⟩]
    | none => es.map (fun (k, v) => ⟨k, v.textOrEmpty⟩)
  | v => [⟨v.text, ""⟩]

/-- **A tag field**: each entry is a tag with `name` and `text`, a map from names to texts, or a bare
    name. -/
def tags (v : Value) : Except Fault (List Tag) := do
  return (← v.elementsIfTrue).flatMap tagsOfEntry

/-- **The fields of one record.** -/
abbrev Fields := List (String × Value)

/-- A field of a record, `null` where it is not written. -/
def Fields.get (es : Fields) (key : String) : Value := (Value.lookup key es).getD .null

/-- A truth field with its default. -/
def Fields.flag (es : Fields) (key : String) (default : Bool) : Bool :=
  ((Value.lookup key es).getD (.bool default)).isTrue

/-- A number field; where it is not written, zero. -/
def Fields.number (es : Fields) (key : String) : Except Fault Int :=
  ((Value.lookup key es).getD (.int 0)).toInt

/-- The fields of a raw record: one that does not count as set has none. -/
def recordFields (raw : Value) : Except Fault Fields :=
  if raw.isTrue then raw.fields else .ok []

namespace Declared

variable (d : Declared)

def symbol (v : Value) : Except Fault (Option SymbolId) := do
  return (← reference .symbols d.symbols v).map .mk

def symbolList (v : Value) : Except Fault (List (Option SymbolId)) := do
  return (← references .symbols d.symbols v).map (·.map .mk)

def declaration (v : Value) : Except Fault (Option DeclarationId) := do
  return (← reference .declarations d.declarations v).map .mk

def declarationList (v : Value) : Except Fault (List (Option DeclarationId)) := do
  return (← references .declarations d.declarations v).map (·.map .mk)

def signature (v : Value) : Except Fault (Option SignatureId) := do
  return (← reference .signatures d.signatures v).map .mk

def signatureList (v : Value) : Except Fault (List (Option SignatureId)) := do
  return (← references .signatures d.signatures v).map (·.map .mk)

def type (v : Value) : Except Fault (Option TypeId) := do
  return (← reference .types d.types v).map .mk

def typeList (v : Value) : Except Fault (List (Option TypeId)) := do
  return (← references .types d.types v).map (·.map .mk)

end Declared

/-! ## 3. Records -/

/-- **One type record.** -/
def linkType (d : Declared) (es : Fields) : Except Fault TypeFacts := do
  let flags ← Flags.parse (es.get "flags")
  let objectFlags ← Flags.parse (es.get "objectFlags")
  let symbol ← d.symbol (es.get "symbol")
  let aliasSymbol ← d.symbol (es.get "aliasSymbol")
  let aliasTypeArguments ← d.typeList (es.get "aliasTypeArguments")
  let typeArguments ← d.typeList (es.get "typeArguments")
  let target ← d.type (es.get "target")
  let types ← d.typeList (es.get "types")
  let texts ← (es.get "texts").elementsIfTrue
  let objectType ← d.type (es.get "objectType")
  let indexType ← d.type (es.get "indexType")
  let checkType ← d.type (es.get "checkType")
  let extendsType ← d.type (es.get "extendsType")
  let trueType ← d.type (es.get "trueType")
  let falseType ← d.type (es.get "falseType")
  let baseType ← d.type (es.get "baseType")
  let baseTypes ← d.typeList (es.get "baseTypes")
  let properties ← d.symbolList (es.get "properties")
  let callSignatures ← d.signatureList (es.get "callSignatures")
  let constructSignatures ← d.signatureList (es.get "constructSignatures")
  let nonOptional ← d.type (es.get "nonOptional")
  let constraint ← d.type (es.get "constraint")
  let default ← d.type (es.get "default")
  let typeParameters ← d.typeList (es.get "typeParameters")
  return {
    flags, objectFlags, symbol, aliasSymbol, aliasTypeArguments
    intrinsicName := (es.get "intrinsicName").textOrEmpty
    value := es.get "value"
    typeArguments, target, types
    texts := texts.map Value.text
    objectType, indexType, checkType, extendsType, trueType, falseType, baseType, baseTypes
    properties, callSignatures, constructSignatures
    stringIndex := es.flag "stringIndex" false
    numberIndex := es.flag "numberIndex" false
    nonOptional, constraint, default, typeParameters
    thisType := es.flag "thisType" false
    array := es.flag "array" false
    tuple := es.flag "tuple" false
    text := (es.get "text").textOrEmpty }

/-- One parameter tag. -/
def linkParamTag (d : Declared) (v : Value) : Except Fault ParamTag := do
  let name ← v.index "name"
  let text ← v.get "text"
  let optional ← v.getD "optional" (.bool false)
  let type ← d.type (← v.get "type")
  return { name := name.text, text := text.textOrEmpty, optional := optional.isTrue, type }

/-- The location of a declaration, when it has a path; it ends on its own line unless stated. -/
def linkLocation (es : Fields) : Except Fault (Option SourceLocation) := do
  if (es.get "path").isTrue then
    let start ← es.number "start"
    let stop ← es.number "end"
    let line ← es.number "line"
    let column ← es.number "column"
    let endLine ← match Value.lookup "endLine" es with
      | some v => v.toInt
      | none => es.number "line"
    let endColumn ← es.number "endColumn"
    return some { path := (es.get "path").text, start, stop, line, column, endLine, endColumn }
  else return none

/-- The syntax kind of a declaration. -/
def declarationKind : Value → DeclarationKind
  | .str s => .ofWord s
  | _ => .other

/-- **One declaration record.** -/
def linkDeclaration (d : Declared) (es : Fields) : Except Fault DeclarationFacts := do
  let modifiers ← Flags.parse (es.get "modifiers")
  let signature ← d.signature (es.get "signature")
  let implements ← d.typeList (es.get "implements")
  let paramTags ← (← (es.get "paramTags").elementsIfTrue).mapM (linkParamTag d)
  let commentLength ← es.number "commentLength"
  let location ← linkLocation es
  return {
    kind := declarationKind (es.get "kind")
    name := es.get "name"
    modifiers
    privateName := es.flag "privateName" false
    implementation := es.flag "implementation" false
    hasParameters := es.flag "parameters" true
    signature
    binding := ((Value.lookup "binding" es).getD (.str "var")).text
    bindingPattern := es.get "bindingPattern"
    asterisk := es.flag "asterisk" false
    rest := es.flag "rest" false
    question := es.flag "question" false
    initializer := es.get "initializer"
    constantValue := es.get "constantValue"
    implements, paramTags
    returns := es.get "returns"
    commentLength, location }

/-- **One signature record.** -/
def linkSignature (d : Declared) (es : Fields) : Except Fault SignatureFacts := do
  let parameters ← d.symbolList (es.get "parameters")
  let returnType ← d.type (es.get "returnType")
  let typeParameters ← d.typeList (es.get "typeParameters")
  let declaration ← d.declaration (es.get "declaration")
  let tags ← tags (es.get "tags")
  return { parameters, returnType, typeParameters, declaration
           comment := { text := (es.get "doc").textOrEmpty, tags } }

/-- The member table of a symbol. -/
def linkMembers (d : Declared) (v : Value) : Except Fault (List (String × Option SymbolId)) := do
  (← recordFields v).mapM (fun (name, key) => do return (name, ← d.symbol key))

/-- **One symbol record**; its name defaults to its id, its escaped name to its name. -/
def linkSymbol (d : Declared) (id : String) (es : Fields) : Except Fault SymbolFacts := do
  let name := ((Value.lookup "name" es).getD (.str id)).text
  let flags ← Flags.parse (es.get "flags")
  let parent ← d.symbol (es.get "parent")
  let declarations ← d.declarationList (es.get "declarations")
  let valueDeclaration ← d.declaration (es.get "valueDeclaration")
  let members ← linkMembers d (es.get "members")
  let exports ← d.symbolList (es.get "exports")
  let type ← d.type (es.get "type")
  let declaredType ← d.type (es.get "declaredType")
  let aliasTarget ← d.symbol (es.get "aliasTarget")
  let tags ← tags (es.get "tags")
  let escaped := es.get "escapedName"
  return {
    name
    escapedName := if escaped.isTrue then escaped.text else name
    flags, parent
    sourceFile := es.flag "sourceFile" false
    declarations, valueDeclaration, members, exports, type, declaredType, aliasTarget
    comment := { text := (es.get "doc").textOrEmpty, tags } }

/-- One import of a unit. -/
def linkImport (v : Value) : Except Fault Import := do
  let name ← v.index "name"
  let resolved ← v.get "resolved"
  return { name := name.text, resolved }

/-- **One unit**: its name defaults to its path and its path to its name. -/
def linkUnit (d : Declared) (raw : Value) : Except Fault UnitFacts := do
  let es : Fields ← raw.fields
  let name := if (es.get "name").isTrue then (es.get "name").text else (es.get "path").textOrEmpty
  let symbol ← d.symbol (es.get "symbol")
  let tags ← tags (es.get "tags")
  let imports ← (← (es.get "imports").elementsIfTrue).mapM linkImport
  return {
    name
    path := if (es.get "path").isTrue then (es.get "path").text else name
    isDeclaration := es.flag "declaration" false
    isModule := es.flag "module" false
    symbol, tags, imports }

/-- The records of one section, in written order. -/
def linkSection {α : Type} (v : Value) (link : String → Fields → Except Fault α) :
    Except Fault (List (String × α)) := do
  (← v.fields).mapM (fun (key, raw) => do return (key, ← link key (← recordFields raw)))

/-- The sections of a document, missing ones added empty. -/
def withSections (es : Fields) : Fields :=
  ["units", "symbols", "declarations", "signatures", "types"].foldl
    (fun es key => match Value.lookup key es with
      | some _ => es
      | none => es ++ [(key, if key == "units" then .list [] else .map [])]) es

end Link

open Link in
/-- **Linking a document.**  All ids are declared first, then the records are read. -/
def Facts.link (doc : Value) : Except Fault Facts := do
  let es := withSections (← doc.fields)
  let symbolIds ← sectionKeys (es.get "symbols")
  let declarationIds ← sectionKeys (es.get "declarations")
  let signatureIds ← sectionKeys (es.get "signatures")
  let typeIds ← sectionKeys (es.get "types")
  let d : Declared := ⟨symbolIds, declarationIds, signatureIds, typeIds⟩
  let types ← linkSection (es.get "types") (fun _ => linkType d)
  let declarations ← linkSection (es.get "declarations") (fun _ => linkDeclaration d)
  let signatures ← linkSection (es.get "signatures") (fun _ => linkSignature d)
  let symbols ← linkSection (es.get "symbols") (linkSymbol d)
  let units ← (← (es.get "units").elementsIfTrue).mapM (linkUnit d)
  return { symbols, declarations, signatures, types, units }

end ApiReference
