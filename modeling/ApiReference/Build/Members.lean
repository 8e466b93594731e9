/-
  Classifying symbols.

  `fillMember` looks at the flags of a symbol and fills its record by the first rule that fits:
  functions before variables, variables before classes, and so on.  A symbol without a declaration is
  a field.

  1. values      -- variables, properties, accessors, enumeration members;
  2. containers  -- enumerations, type aliases, namespaces, modules;
  3. aliases;
  4. `fillMember`.
-/
import ApiReference.Build.Classes
import ApiReference.Build.Functions
import ApiReference.Naming

namespace ApiReference.Build

variable (cx : Context) (r : Requests)

/-! ## 1. Values -/

/-- The type of a symbol's value, set on its record. -/
def fillType (t : TypeRef) (h : MemberHandle) : Build PUnit := do
  let type ← r.type (some t)
  modifyMember h (fun c => { c with type := some type })

/-- A variable or constant; a value that can be constructed is documented as a class. -/
def fillVariable (symbol : SymbolId) (d : DeclarationId) (h : MemberHandle) : Build PUnit := do
  let f := cx.facts
  let facts := f.declaration d
  let t := f.typeOfSymbol symbol
  if !(f.type t).constructSignatures.isEmpty then fillClass cx r symbol h
  else
    let isConst := facts.binding == "const"
    fillBase cx r (f.symbol symbol).comment symbol (some d)
      (if isConst then .constant else .variable_) h
    if isConst then modifyMember h (·.mark .readOnly)
    fillType r t h
    match facts.kind, facts.name with
    | .identifier, .str "module" => modifyMember h (fun c => { c with ignored := true })
    | _, _ => pure ()

/-- A property: an event if its name fits the pattern and it can be called, else a field. -/
def fillProperty (symbol : SymbolId) (d : DeclarationId) (h : MemberHandle) : Build PUnit := do
  let f := cx.facts
  let t := f.typeOfSymbol symbol
  let isEvent := cx.settings.eventPattern (f.symbol symbol).name
    && !(f.type t).callSignatures.isEmpty
  fillBase cx r (f.symbol symbol).comment symbol (some d) (if isEvent then .event else .field) h
  fillType r t h
  match (f.declaration d).initializer with
  | .null => pure ()
  | v => modifyMember h (fun c => { c with docs := { c.docs with defaultValue := some v } })

/-- A getter, a setter, or both; without a setter it is read only. -/
def fillAccessor (symbol : SymbolId) (d : DeclarationId) (h : MemberHandle) : Build PUnit := do
  let f := cx.facts
  fillBase cx r (f.symbol symbol).comment symbol (some d) .accessor h
  if (f.symbol symbol).flags.meets SymbolFlags.setters then pure ()
  else modifyMember h (·.mark .readOnly)
  fillType r (f.typeOfSymbol symbol) h

/-- A member of an enumeration; its value is the constant of its declaration. -/
def fillEnumMember (symbol : SymbolId) (d : DeclarationId) (h : MemberHandle) : Build PUnit := do
  let f := cx.facts
  fillBase cx r (f.symbol symbol).comment symbol (some d) .enumMember h
  modifyMember h (fun c =>
    { c with docs := { c.docs with defaultValue := (f.declaration d).constantValue.toOption } })

/-! ## 2. Containers -/

/-- The declared type of a symbol, set on its record. -/
def fillDeclaredType (symbol : SymbolId) (h : MemberHandle) : Build PUnit := do
  match (cx.facts.symbol symbol).declaredType with
  | none => pure ()
  | some t =>
    let type ← r.type (some (.known t))
    modifyMember h (fun c => { c with declaredType := some type })

/-- The exports of a symbol as the members of its record, in display order if asked. -/
def fillExports (symbol : SymbolId) (sorted : Bool) (h : MemberHandle) : Build PUnit := do
  let members ← (cx.facts.symbol symbol).exports.mapM r.member
  modify (fun s =>
    let shown := if sorted then sortMembers s.toModel members else members
    { s with members := s.members.modify h.index (fun c =>
      { c with members := some (shown.map some) }) })

/-- An enumeration; a constant one is read only, and its members keep their order. -/
def fillEnum (symbol : SymbolId) (h : MemberHandle) : Build PUnit := do
  let s := cx.facts.symbol symbol
  let d ← orFault (firstDeclaration? cx (fun d => d.kind = .enumDeclaration) s.declarations)
  fillBase cx r s.comment symbol d .enum h
  if s.flags.meets SymbolFlags.constEnums then modifyMember h (·.mark .readOnly)
  fillDeclaredType cx r symbol h
  fillExports cx r symbol false h

/-- A type alias. -/
def fillTypeAlias (symbol : SymbolId) (h : MemberHandle) : Build PUnit := do
  let s := cx.facts.symbol symbol
  let d ← orFault (firstDeclaration? cx (fun d => d.kind = .typeAliasDeclaration) s.declarations)
  fillBase cx r s.comment symbol d .typeAlias h
  fillDeclaredType cx r symbol h

/-- A namespace, documented by its best documented declaration. -/
def fillNamespace (symbol : SymbolId) (h : MemberHandle) : Build PUnit := do
  let s := cx.facts.symbol symbol
  let modules ← orFault (declarationsWith cx (fun d => d.kind = .moduleDeclaration) s.declarations)
  let d := match modules with
    | [] => s.declarations.head?.join
    | ds => bestDeclaration cx ds
  fillBase cx r s.comment symbol d .namespace_ h
  fillExports cx r symbol cx.settings.sort h

/-- A module, shown as an import of its file. -/
def fillModule (symbol : SymbolId) (h : MemberHandle) : Build PUnit := do
  let s := cx.facts.symbol symbol
  fillBase cx r s.comment symbol s.declarations.head?.join .module h
  modifyMember h (fun c => { c with name := match c.name with
    | .str name => .str (moduleDisplayName name cx.host.directory)
    | v => v })
  fillExports cx r symbol cx.settings.sort h

/-- A function, with the class and the namespace that are merged into it. -/
def fillFunction (symbol : SymbolId) (h : MemberHandle) : Build PUnit := do
  let s := cx.facts.symbol symbol
  let ds ← orFault (declarationsWith cx
    (fun d => d.kind ≠ .moduleDeclaration && d.kind ≠ .interfaceDeclaration) s.declarations)
  consolidate cx r symbol ds h
  if s.flags.meets SymbolFlags.classesAndInterfaces then
    let merged ← newMember
    modifyMember h (fun c => { c with classOrInterface := some merged })
    fillClass cx r symbol merged
    complete (.member merged)
  if s.flags.meets SymbolFlags.namespaceModules then
    let merged ← newMember
    modifyMember h (fun c => { c with namespace_ := some merged })
    fillNamespace cx r symbol merged
    complete (.member merged)

/-! ## 3. Aliases -/

/-- An alias: a module's namespace is a constant, an alias that leads nowhere is unknown, any other
    is a copy of its target under its own symbol. -/
def fillAlias (symbol : SymbolId) (d : DeclarationId) (h : MemberHandle) : Build PUnit := do
  let f := cx.facts
  let target := f.aliasedSymbol symbol
  if (f.symbol target).flags.meets SymbolFlags.valueModules then
    fillBase cx r (f.symbol symbol).comment symbol (some d) .constant h
    fillType r (f.typeOfSymbol symbol) h
  else if target = symbol then
    fillBase cx r (f.symbol symbol).comment symbol (some d) .unknown h
  else
    let source ← r.member (some target)
    copyMember source h (.withRaw symbol)

/-! ## 4. Classification -/

/-- **The record of a symbol**, filled by the first rule that its flags satisfy. -/
def fillMember (key : Option SymbolId) (h : MemberHandle) : Build PUnit := do
  let f := cx.facts
  let symbol ← orFault (present key)
  let s := f.symbol symbol
  match f.valueDeclaration symbol with
  | none =>
    fillBase cx r s.comment symbol none .field h
    fillType r (f.typeOfSymbol symbol) h
  | some d =>
    if s.flags.meets SymbolFlags.callables then fillFunction cx r symbol h
    else if s.flags.meets SymbolFlags.variableKinds then fillVariable cx r symbol d h
    else if s.flags.meets SymbolFlags.classesAndInterfaces then fillClass cx r symbol h
    else if s.flags.meets SymbolFlags.properties then fillProperty cx r symbol d h
    else if s.flags.meets SymbolFlags.accessors then fillAccessor cx r symbol d h
    else if s.flags.meets SymbolFlags.enumMembers then fillEnumMember cx r symbol d h
    else if s.flags.meets SymbolFlags.enums then fillEnum cx r symbol h
    else if s.flags.meets SymbolFlags.typeAliases then fillTypeAlias cx r symbol h
    else if s.flags.meets SymbolFlags.namespaceModules then fillNamespace cx r symbol h
    else if s.flags.meets SymbolFlags.aliases then fillAlias cx r symbol d h
    else if s.flags.meets SymbolFlags.valueModules then fillModule cx r symbol h
    else fillBase cx r s.comment symbol (some d) .unknown h

end ApiReference.Build
