/-
  The records of the documentation model.

  A record is flat: only the fields that its kind uses are set, and records refer to each other by
  handle, the number under which a record was registered.  An empty record is registered before it
  is filled, so a reader inside a cyclic build may see it half filled.

  1. handles;
  2. `Parameter`, `TypeParameter`;
  3. `Member`     -- a documented program entity;
  4. `TypeExpr`   -- one node of a type expression; the expansion of an alias and the branches of a
                     conditional type are worked out on first use and remembered;
  5. `UnitRecord` -- a documented source file.
-/
import ApiReference.Facts.Basic
import ApiReference.Model.Docs
import ApiReference.Model.Kinds
import ApiReference.Model.Modifiers

namespace ApiReference

/-! ## 1. Handles -/

/-- The number of a member record. -/
structure MemberHandle where
  index : Nat
deriving DecidableEq, Repr, Inhabited

/-- The number of a type record. -/
structure TypeHandle where
  index : Nat
deriving DecidableEq, Repr, Inhabited

/-- The number of a unit record. -/
structure UnitHandle where
  index : Nat
deriving DecidableEq, Repr, Inhabited

/-- **A record of any kind.** -/
inductive RecordHandle where
  | member (h : MemberHandle)
  | type (h : TypeHandle)
  | unit (h : UnitHandle)
deriving DecidableEq, Repr, Inhabited

/-! ## 2. Parameters -/

/-- **A parameter**, with the parts of it that are described on their own. -/
structure Parameter where
  name : Value
  type : Option TypeHandle := none
  summary : Option String := none
  rest : Bool := false
  optional : Bool := false
  defaultValue : Option Value := none
  subParameters : Option (List Parameter) := none
  raw : Option SymbolId := none
deriving Inhabited, Repr

/-- The parameter with one more part described. -/
def Parameter.addSub (p sub : Parameter) : Parameter :=
  { p with subParameters := some (p.subParameters.getD [] ++ [sub]) }

/-- **A type parameter.** -/
structure TypeParameter where
  name : String
  summary : Option String := none
  constraint : Option TypeHandle := none
  default : Option TypeHandle := none
  raw : Option TypeRef := none
deriving Inhabited, Repr

/-! ## 3. Members -/

/-- **A documented program entity.** -/
structure Member where
  kind : MemberKind := .unknown
  name : Value := .str ""
  /-- dotted -/
  id : String := ""
  modifiers : Modifiers := ∅
  raw : Option SymbolId := none
  declaration : Option DeclarationId := none
  location : Option SourceLocation := none
  parent : Option MemberHandle := none
  /-- the record this view was copied from -/
  base : Option MemberHandle := none
  /-- the member of a base type that this one overrides -/
  overrides : Option MemberHandle := none
  ignored : Bool := false
  docs : Docs := {}
  type : Option TypeHandle := none
  typeParameters : Option (List TypeParameter) := none
  parameters : Option (List Parameter) := none
  returnType : Option TypeHandle := none
  overloads : Option (List (Option MemberHandle)) := none
  /-- the class or interface merged into a function -/
  classOrInterface : Option MemberHandle := none
  /-- the namespace merged into a function -/
  namespace_ : Option MemberHandle := none
  declaredType : Option TypeHandle := none
  extends_ : Option (List (Option TypeHandle)) := none
  implements : Option (List (Option TypeHandle)) := none
  members : Option (List (Option MemberHandle)) := none
deriving Inhabited, Repr

/-- Does the member carry the modifier? -/
def Member.has (m : Member) (x : Modifier) : Bool := m.modifiers.has x

/-- The member with one more modifier. -/
def Member.mark (m : Member) (x : Modifier) : Member := { m with modifiers := m.modifiers.insert x }

/-- The short form of a member, for messages. -/
def Member.shortForm (m : Member) : String :=
  let label := if m.id != "" then Value.str m.id else m.name
  "DocMember(" ++ m.kind.word ++ " " ++ label.quoted ++ ")"

/-! ## 4. Type expressions -/

/-- A piece of a template literal. -/
inductive Span where
  | text (s : String)
  | type (t : Option TypeHandle)
deriving Inhabited, Repr, DecidableEq

/-- Where the expansion of an alias comes from. -/
inductive Expansion where
  /-- built from the facts of a type, as if it had no alias -/
  | ofType (t : TypeRef)
  /-- a record that is there already, if any -/
  | record (t : Option TypeHandle)
deriving Inhabited, Repr, DecidableEq

/-- Where the branches of a conditional type come from. -/
inductive Branches where
  /-- resolved from the facts of a type -/
  | ofType (t : TypeRef)
  /-- records that are there already -/
  | records (whenTrue whenFalse : Option TypeHandle)
deriving Inhabited, Repr, DecidableEq

/-- **One node of a type expression.** -/
structure TypeExpr where
  kind : TypeKind := .unknown
  raw : Option TypeRef := none
  name : Option String := none
  value : Option String := none
  member : Option MemberHandle := none
  spans : Option (List Span) := none
  target : Option TypeHandle := none
  typeArguments : Option (List (Option TypeHandle)) := none
  element : Option TypeHandle := none
  elements : Option (List (Option TypeHandle)) := none
  key : Option TypeHandle := none
  operands : Option (List (Option TypeHandle)) := none
  signature : Option SignatureId := none
  typeParameters : Option (List TypeParameter) := none
  parameters : Option (List Parameter) := none
  returnType : Option TypeHandle := none
  members : Option (List (Option MemberHandle)) := none
  checkType : Option TypeHandle := none
  extendsType : Option TypeHandle := none
  /-- how to expand an alias -/
  expansion : Option Expansion := none
  /-- how to resolve the branches of a conditional type -/
  branches : Option Branches := none
  /-- the expansion, once worked out -/
  expanded : Option TypeHandle := none
  /-- the branches, once worked out -/
  resolved : Option (Option TypeHandle × Option TypeHandle) := none
deriving Inhabited, Repr

/-- **A type record takes over another**: everything but the type it stands for. -/
def TypeExpr.takeOver (target source : TypeExpr) : TypeExpr := { source with raw := target.raw }

/-! ## 5. Units -/

/-- **A documented source file.** -/
structure UnitRecord where
  path : String := ""
  name : String := ""
  isDeclaration : Bool := false
  isModule : Bool := false
  imports : List Import := []
  members : List MemberHandle := []
  summary : Option String := none
  author : Option String := none
  copyright : Option String := none
  license : Option String := none
  version : Option String := none
  created : Option String := none
  modified : Option String := none
  unknownTags : Option NamedTexts := none
deriving Inhabited, Repr

end ApiReference
