/-
  What a documented member is, and what shape a type expression has.

  Both classifications are closed; each kind has one word, used in dumped data and in answers.
-/
namespace ApiReference

/-- **The kinds of documented members.** -/
inductive MemberKind where
  | unknown
  | variable_
  | constant
  | field
  | function
  | method
  | constructor
  | accessor
  | event
  | indexSignature
  | callSignature
  | class_
  | interface
  | enum
  | enumMember
  | typeAlias
  | namespace_
  | module
deriving DecidableEq, Repr, Inhabited

namespace MemberKind

/-- All kinds. -/
def all : List MemberKind :=
  [.unknown, .variable_, .constant, .field, .function, .method, .constructor, .accessor, .event,
   .indexSignature, .callSignature, .class_, .interface, .enum, .enumMember, .typeAlias, .namespace_,
   .module]

/-- The word of a kind. -/
def word : MemberKind → String
  | .unknown => "unknown"
  | .variable_ => "variable"
  | .constant => "constant"
  | .field => "field"
  | .function => "function"
  | .method => "method"
  | .constructor => "constructor"
  | .accessor => "accessor"
  | .event => "event"
  | .indexSignature => "indexSignature"
  | .callSignature => "callSignature"
  | .class_ => "class"
  | .interface => "interface"
  | .enum => "enum"
  | .enumMember => "enumMember"
  | .typeAlias => "typeAlias"
  | .namespace_ => "namespace"
  | .module => "module"

/-- The kind of a word. -/
def ofWord? (s : String) : Option MemberKind := all.find? (fun k => k.word == s)

/-- Kinds that a class view lists as properties. -/
def isProperty : MemberKind → Bool
  | .field | .accessor => true
  | _ => false

/-- Kinds that a class view lists as methods. -/
def isMethod : MemberKind → Bool
  | .method | .callSignature => true
  | _ => false

/-- Kinds whose members are inherited. -/
def isInheriting : MemberKind → Bool
  | .class_ | .interface => true
  | _ => false

end MemberKind

/-- **The shapes of type expressions.** -/
inductive TypeKind where
  | unknown
  | error
  | native
  | numberLiteral
  | stringLiteral
  | bigintLiteral
  | templateLiteral
  | classRef
  | interfaceRef
  | enumRef
  | enumMemberRef
  | typeParameterRef
  | thisRef
  | aliasRef
  | genericInstantiation
  | functionSignature
  | constructorSignature
  | array
  | tuple
  | anonymousObject
  | keyOf
  | typeOf
  | indexedAccess
  | union
  | intersection
  | conditional
deriving DecidableEq, Repr, Inhabited

namespace TypeKind

/-- All shapes. -/
def all : List TypeKind :=
  [.unknown, .error, .native, .numberLiteral, .stringLiteral, .bigintLiteral, .templateLiteral,
   .classRef, .interfaceRef, .enumRef, .enumMemberRef, .typeParameterRef, .thisRef, .aliasRef,
   .genericInstantiation, .functionSignature, .constructorSignature, .array, .tuple,
   .anonymousObject, .keyOf, .typeOf, .indexedAccess, .union, .intersection, .conditional]

/-- The word of a shape. -/
def word : TypeKind → String
  | .unknown => "unknown"
  | .error => "error"
  | .native => "native"
  | .numberLiteral => "numberLiteral"
  | .stringLiteral => "stringLiteral"
  | .bigintLiteral => "bigintLiteral"
  | .templateLiteral => "templateLiteral"
  | .classRef => "classRef"
  | .interfaceRef => "interfaceRef"
  | .enumRef => "enumRef"
  | .enumMemberRef => "enumMemberRef"
  | .typeParameterRef => "typeParameterRef"
  | .thisRef => "thisRef"
  | .aliasRef => "aliasRef"
  | .genericInstantiation => "genericInstantiation"
  | .functionSignature => "functionSignature"
  | .constructorSignature => "constructorSignature"
  | .array => "array"
  | .tuple => "tuple"
  | .anonymousObject => "anonymousObject"
  | .keyOf => "keyOf"
  | .typeOf => "typeOf"
  | .indexedAccess => "indexedAccess"
  | .union => "union"
  | .intersection => "intersection"
  | .conditional => "conditional"

/-- The shape of a word. -/
def ofWord? (s : String) : Option TypeKind := all.find? (fun k => k.word == s)

/-- Shapes that need parentheses next to an operator. -/
def isCompound : TypeKind → Bool
  | .functionSignature | .union | .intersection | .conditional => true
  | _ => false

end TypeKind

end ApiReference
