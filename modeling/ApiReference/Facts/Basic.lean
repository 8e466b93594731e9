/-
  Facts about one compilation, after linking.

  A compiler's checker knows symbols, their declarations, signatures and types.  Each has an id, and
  records refer to each other by id, so cyclic facts are ordinary data.

  1. ids               -- `SymbolId`, `DeclarationId`, `SignatureId`, `TypeId`; an optional id is a
                          reference that may be missing;
  2. `Tag`, `Comment`, `SourceLocation` -- what is written in the source;
  3. the records       -- `DeclarationFacts`, `SymbolFacts`, `SignatureFacts`, `TypeFacts`, `UnitFacts`;
  4. `Facts`           -- the compilation, with look-ups by id.
-/
import ApiReference.Data.Value
import ApiReference.Flags.Names

namespace ApiReference

/-! ## 1. Ids -/

/-- The id of a symbol. -/
structure SymbolId where
  text : String
deriving DecidableEq, Repr, Inhabited

/-- The id of a declaration. -/
structure DeclarationId where
  text : String
deriving DecidableEq, Repr, Inhabited

/-- The id of a signature. -/
structure SignatureId where
  text : String
deriving DecidableEq, Repr, Inhabited

/-- The id of a type. -/
structure TypeId where
  text : String
deriving DecidableEq, Repr, Inhabited

/-- **A type the checker can name**: a declared one, or the error type that stands for a type it
    does not know. -/
inductive TypeRef where
  | known (id : TypeId)
  | error
deriving DecidableEq, Repr, Inhabited

/-- A declared type where one is recorded, else the error type. -/
def TypeRef.orError : Option TypeId → TypeRef
  | some t => .known t
  | none => .error

/-- The text that stands for the type in answers. -/
def TypeRef.text : TypeRef → String
  | .known t => t.text
  | .error => "(error)"

/-! ## 2. Source text -/

/-- A documentation tag. -/
structure Tag where
  name : String
  text : String := ""
deriving DecidableEq, Repr, Inhabited

/-- **A documentation comment**: its text and its tags, in order. -/
structure Comment where
  text : String := ""
  tags : List Tag := []
deriving Repr, Inhabited

/-- A tag that describes a parameter; a dotted name describes a part of one. -/
structure ParamTag where
  name : String
  text : String := ""
  optional : Bool := false
  type : Option TypeId := none
deriving Repr, Inhabited

/-- Where a declaration stands; offsets, lines and columns count from zero. -/
structure SourceLocation where
  path : String
  start : Int := 0
  stop : Int := 0
  line : Int := 0
  column : Int := 0
  endLine : Int := 0
  endColumn : Int := 0
deriving DecidableEq, Repr, Inhabited

/-- **The syntax of a declaration.** -/
inductive DeclarationKind where
  | sourceFile
  | classDeclaration
  | interfaceDeclaration
  | functionDeclaration
  | functionExpression
  | arrowFunction
  | methodDeclaration
  | methodSignature
  | constructor
  | callSignature
  | constructSignature
  | indexSignature
  | propertyDeclaration
  | propertySignature
  | propertyAssignment
  | variableDeclaration
  | getAccessor
  | setAccessor
  | enumDeclaration
  | enumMember
  | typeAliasDeclaration
  | moduleDeclaration
  | parameter
  | typeParameter
  | identifier
  | exportSpecifier
  | importSpecifier
  | other
deriving DecidableEq, Repr, Inhabited

/-- The kind of a document's word; words it does not know are other declarations. -/
def DeclarationKind.ofWord : String → DeclarationKind
  | "SourceFile" => .sourceFile
  | "ClassDeclaration" => .classDeclaration
  | "InterfaceDeclaration" => .interfaceDeclaration
  | "FunctionDeclaration" => .functionDeclaration
  | "FunctionExpression" => .functionExpression
  | "ArrowFunction" => .arrowFunction
  | "MethodDeclaration" => .methodDeclaration
  | "MethodSignature" => .methodSignature
  | "Constructor" => .constructor
  | "CallSignature" => .callSignature
  | "ConstructSignature" => .constructSignature
  | "IndexSignature" => .indexSignature
  | "PropertyDeclaration" => .propertyDeclaration
  | "PropertySignature" => .propertySignature
  | "PropertyAssignment" => .propertyAssignment
  | "VariableDeclaration" => .variableDeclaration
  | "GetAccessor" => .getAccessor
  | "SetAccessor" => .setAccessor
  | "EnumDeclaration" => .enumDeclaration
  | "EnumMember" => .enumMember
  | "TypeAliasDeclaration" => .typeAliasDeclaration
  | "ModuleDeclaration" => .moduleDeclaration
  | "Parameter" => .parameter
  | "TypeParameter" => .typeParameter
  | "Identifier" => .identifier
  | "ExportSpecifier" => .exportSpecifier
  | "ImportSpecifier" => .importSpecifier
  | _ => .other

/-! ## 3. Records -/

/-- **A declaration of a symbol.**  Names, initialisers and constants are kept as the document has
    them. -/
structure DeclarationFacts where
  kind : DeclarationKind := .other
  name : Value := .null
  modifiers : SyntaxFlags := ∅
  privateName : Bool := false
  implementation : Bool := false
  hasParameters : Bool := true
  signature : Option SignatureId := none
  binding : String := "var"
  bindingPattern : Value := .null
  asterisk : Bool := false
  rest : Bool := false
  question : Bool := false
  initializer : Value := .null
  constantValue : Value := .null
  implements : List (Option TypeId) := []
  paramTags : List ParamTag := []
  returns : Value := .null
  commentLength : Int := 0
  location : Option SourceLocation := none
deriving Repr, Inhabited

/-- **A named program entity.** -/
structure SymbolFacts where
  name : String := ""
  escapedName : String := ""
  flags : SymbolFlags := ∅
  parent : Option SymbolId := none
  sourceFile : Bool := false
  declarations : List (Option DeclarationId) := []
  valueDeclaration : Option DeclarationId := none
  members : List (String × Option SymbolId) := []
  exports : List (Option SymbolId) := []
  type : Option TypeId := none
  declaredType : Option TypeId := none
  aliasTarget : Option SymbolId := none
  comment : Comment := {}
deriving Repr, Inhabited

/-- **A call, construct or index signature.** -/
structure SignatureFacts where
  parameters : List (Option SymbolId) := []
  returnType : Option TypeId := none
  typeParameters : List (Option TypeId) := []
  declaration : Option DeclarationId := none
  comment : Comment := {}
deriving Repr, Inhabited

/-- **A type as the checker sees it.** -/
structure TypeFacts where
  flags : TypeFlags := ∅
  objectFlags : ObjectFlags := ∅
  symbol : Option SymbolId := none
  aliasSymbol : Option SymbolId := none
  aliasTypeArguments : List (Option TypeId) := []
  intrinsicName : String := ""
  value : Value := .null
  typeArguments : List (Option TypeId) := []
  target : Option TypeId := none
  types : List (Option TypeId) := []
  texts : List String := []
  objectType : Option TypeId := none
  indexType : Option TypeId := none
  checkType : Option TypeId := none
  extendsType : Option TypeId := none
  trueType : Option TypeId := none
  falseType : Option TypeId := none
  baseType : Option TypeId := none
  baseTypes : List (Option TypeId) := []
  properties : List (Option SymbolId) := []
  callSignatures : List (Option SignatureId) := []
  constructSignatures : List (Option SignatureId) := []
  stringIndex : Bool := false
  numberIndex : Bool := false
  nonOptional : Option TypeId := none
  constraint : Option TypeId := none
  default : Option TypeId := none
  typeParameters : List (Option TypeId) := []
  thisType : Bool := false
  array : Bool := false
  tuple : Bool := false
  text : String := ""
deriving Repr, Inhabited

/-- The facts of the error type. -/
def TypeFacts.error : TypeFacts := { flags := TypeFlags.any, intrinsicName := "error" }

/-- An import of a unit and what it resolved to. -/
structure Import where
  name : String
  resolved : Value := .null
deriving Repr, Inhabited

/-- **A source file of the compilation.** -/
structure UnitFacts where
  name : String
  path : String := ""
  isDeclaration : Bool := false
  isModule : Bool := false
  symbol : Option SymbolId := none
  tags : List Tag := []
  imports : List Import := []
deriving Repr, Inhabited

/-! ## 4. The compilation -/

/-- **The linked facts of one compilation**: four tables by id, and the units in order. -/
structure Facts where
  symbols : List (String × SymbolFacts) := []
  declarations : List (String × DeclarationFacts) := []
  signatures : List (String × SignatureFacts) := []
  types : List (String × TypeFacts) := []
  units : List UnitFacts := []
deriving Inhabited

namespace Facts

variable (f : Facts)

/-- The facts of a symbol.  Linking declares every id that a record refers to. -/
def symbol (s : SymbolId) : SymbolFacts := (f.symbols.lookup s.text).getD {}

/-- The facts of a declaration. -/
def declaration (d : DeclarationId) : DeclarationFacts := (f.declarations.lookup d.text).getD {}

/-- The facts of a signature. -/
def signature (s : SignatureId) : SignatureFacts := (f.signatures.lookup s.text).getD {}

/-- The facts of a type. -/
def type : TypeRef → TypeFacts
  | .known t => (f.types.lookup t.text).getD {}
  | .error => .error

end Facts

/-- **A reference that must be there**: asking a field of a missing record is a fault. -/
def present {α : Type} : Option α → Except Fault α
  | some a => .ok a
  | none => .error .noField

end ApiReference
