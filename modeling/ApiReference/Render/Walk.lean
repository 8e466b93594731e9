/-
  Rendering a type expression.

  The walk goes from a type record to its parts and carries the records that are open on the path;
  meeting an open record again yields the marker of a circular type.  The records of a model are
  finitely many, so a walk deeper than their number cannot happen, and the fuel that is their number
  never runs out.

  Conditional types have branches that are resolved on first use.  The walk never builds anything:
  it stops at the first conditional whose branches are not resolved yet and says which one it is.

  1. `Stop`, `Rendering`  -- why a walk stops;
  2. `Style`              -- limits and the checker's own text;
  3. `Style.node`         -- one record, given how to render its parts;
  4. `Style.walk`, `Style.tokens`, `Style.text` -- the walk.
-/
import ApiReference.Render.Token

namespace ApiReference

/-! ## 1. Stops -/

/-- **Why a walk stops.** -/
inductive Stop where
  | fault (cause : Fault)
  /-- the branches of this conditional type are needed and not resolved yet -/
  | unresolved (type : TypeHandle)
deriving DecidableEq, Repr, Inhabited

/-- A result, or the reason to stop. -/
abbrev Rendering := Except Stop

/-- A fault stops a walk. -/
def Rendering.orFault {α : Type} : Except Fault α → Rendering α
  | .ok a => .ok a
  | .error f => .error (.fault f)

/-! ## 2. Style -/

/-- **How types are shown**: the limits, and the checker's own text of a type record. -/
structure Style where
  limits : Limits := {}
  rawText : TypeExpr → String

/-- How to render a part: its depth and its record. -/
abbrev Walk := Nat → Option TypeHandle → Rendering (List Token)

namespace Style

open Token

variable (s : Style) (m : Model)

/-! ## 3. One record -/

/-- The name of the member that a type refers to, or the checker's own text. -/
def memberName (t : TypeExpr) : Token :=
  match t.member with
  | none => plain .name (s.rawText t)
  | some h => .piece .name (m.member h).name (some h)

/-- A part that needs parentheses when it is compound. -/
def wrapped (walk : Walk) (depth : Nat) (t : Option TypeHandle) : Rendering (List Token) := do
  let tokens ← walk depth t
  match t with
  | some h => return if (m.type h).kind.isCompound then parenthesize tokens else tokens
  | none => return tokens

/-- The operands of a union or intersection. -/
def operands (walk : Walk) (depth : Nat) (t : TypeExpr) : Rendering (List Token) := do
  let isUnion := t.kind = .union
  let separator := if isUnion then " | " else " & "
  let other := if isUnion then TypeKind.intersection else TypeKind.union
  let entries ← (t.operands.getD []).mapM (fun operand => do
    let tokens ← walk depth operand
    match operand with
    | none => throw (.fault .noField)
    | some h =>
      let kind := (m.type h).kind
      return if kind = .functionSignature || kind = .constructorSignature || kind = other
        then parenthesize tokens else tokens)
  return joinWith separator (s.limits.truncate separator entries)

/-- One parameter of a signature. -/
def parameter (walk : Walk) (depth : Nat) (p : Parameter) : Rendering (List Token) := do
  let type ← walk depth p.type
  return (if p.rest then [punct "..."] else []) ++ [Token.piece .property p.name none]
    ++ (if p.optional then [plain .operator "?"] else []) ++ punct ": " :: type

/-- The parameters of a signature, in parentheses. -/
def parameters (walk : Walk) (depth : Nat) (ps : List Parameter) : Rendering (List Token) := do
  let entries ← ps.mapM (parameter walk depth)
  return punct "(" :: (joinWith ", " entries ++ [punct ")"])

/-- One type parameter of a signature. -/
def typeParameter (walk : Walk) (depth : Nat) (p : TypeParameter) : Rendering (List Token) := do
  let constraint ← match p.constraint with
    | none => pure []
    | some h => do pure (plain .keyword " extends " :: (← walk depth (some h)))
  let default ← match p.default with
    | none => pure []
    | some h => do pure (plain .operator " = " :: (← walk depth (some h)))
  return plain .name p.name :: (constraint ++ default)

/-- A function signature; a nested one that is too long collapses into one token. -/
def function (walk : Walk) (depth : Nat) (t : TypeExpr) : Rendering (List Token) := do
  let generics ← match t.typeParameters with
    | none => pure []
    | some [] => pure []
    | some ps => do
      pure (punct "<" :: (joinWith ", " (← ps.mapM (typeParameter walk (depth + 1))) ++ [punct ">"]))
  let ps ← parameters walk (depth + 1) (t.parameters.getD [])
  let result ← walk (depth + 1) t.returnType
  let tokens := generics ++ ps ++ punct " => " :: result
  return if depth ≠ 0 && s.limits.collapseNodes < tokens.length
    then [.folded .builtin "function" tokens] else tokens

/-- The result type of a signature member. -/
def returns (walk : Walk) (depth : Nat) (child : Member) : Rendering (List Token) := do
  return punct ": " :: (← walk depth child.returnType)

/-- The key of an index signature: its first parameter. -/
def indexKey (walk : Walk) (depth : Nat) : List Parameter → Rendering (List Token)
  | [] => pure []
  | p :: _ => do
    return .piece .property p.name none :: punct ": " :: (← walk depth p.type)

/-- The name of a member as the key of an object type; modules are spread. -/
def propertyName (h : MemberHandle) (child : Member) : Rendering Token :=
  match child.name with
  | .str name =>
    pure (.piece .property (.str ((if child.kind = .module then "..." else "") ++ name)) (some h))
  | _ => throw (.fault .notText)

/-- One member of an object type. -/
def objectMember (walk : Walk) (depth : Nat) (child : Option MemberHandle) :
    Rendering (List Token) := do
  match child with
  | none => throw (.fault .noField)
  | some h =>
    let c := m.member h
    let ps := c.parameters.getD []
    match c.kind with
    | .callSignature => return (← parameters walk depth ps) ++ (← returns walk depth c)
    | .constructor =>
      return plain .operator "new " :: ((← parameters walk depth ps) ++ (← returns walk depth c))
    | .indexSignature =>
      let key ← indexKey walk depth ps
      return punct "[" :: (key ++ punct "]" :: (← returns walk depth c))
    | .method | .function =>
      let name ← propertyName h c
      return name :: ((← parameters walk depth ps) ++ (← returns walk depth c))
    | _ =>
      let name ← propertyName h c
      match c.type with
      | none => return [name]
      | some t =>
        let type ← walk depth (some t)
        return name :: ((if c.has .optional then [plain .operator "?"] else []) ++ punct ": " :: type)

/-- An anonymous object type. -/
def object (walk : Walk) (depth : Nat) (t : TypeExpr) : Rendering (List Token) := do
  let entries ← (t.members.getD []).mapM (objectMember m walk depth)
  if entries.isEmpty then return [punct "\x7b\x7d"]
  else
    return punct "\x7b " :: (joinWith "; " (s.limits.truncate "; " entries) ++ [punct " \x7d"])

/-- The text of a template literal, its quotes escaped. -/
def templateText (text : String) : String :=
  String.ofList (text.toList.flatMap (fun c => if c.toNat = 0x60 then ['\\', c] else [c]))

/-- A template literal. -/
def template (walk : Walk) (depth : Nat) (t : TypeExpr) : Rendering (List Token) := do
  let spans ← (t.spans.getD []).mapM (fun span => do
    match span with
    | .text text => pure [plain .string (templateText text)]
    | .type h => pure (punct "$\x7b" :: ((← walk depth h) ++ [punct "\x7d"])))
  let quote := plain .string "\x60"
  return quote :: (spans.flatten ++ [quote])

/-- The branches of a conditional type. -/
def branchesOf (h : TypeHandle) (t : TypeExpr) :
    Rendering (Option TypeHandle × Option TypeHandle) :=
  match t.resolved with
  | some pair => pure pair
  | none => match t.branches with
    | some _ => throw (.unresolved h)
    | none => pure (none, none)

/-- **The tokens of one record**, given how to render its parts. -/
def node (walk : Walk) (depth : Nat) (h : TypeHandle) : Rendering (List Token) := do
  let t := m.type h
  let inner := depth + 1
  match t.kind with
  | .native => return [plain .builtin (t.name.getD "")]
  | .error => return [plain .name "?"]
  | .numberLiteral | .bigintLiteral => return [plain .number (t.value.getD "")]
  | .stringLiteral => return [plain .string (Text.asciiQuoted (t.value.getD ""))]
  | .classRef | .interfaceRef | .enumRef | .aliasRef | .typeParameterRef =>
    return [s.memberName m t]
  | .thisRef => return [.piece .builtin (.str "this") t.member]
  | .enumMemberRef =>
    match t.member.bind (fun c => (m.member c).parent) with
    | none => return [s.memberName m t]
    | some p => return [.piece .name (m.member p).name (some p), punct ".", s.memberName m t]
  | .typeOf => return [plain .operator "typeof ", s.memberName m t]
  | .array => return (← wrapped m walk inner t.element) ++ [punct "[]"]
  | .keyOf => return plain .operator "keyof " :: (← wrapped m walk inner t.target)
  | .indexedAccess =>
    let target ← wrapped m walk inner t.target
    let key ← walk inner t.key
    return target ++ punct "[" :: (key ++ [punct "]"])
  | .tuple =>
    let elements ← (t.elements.getD []).mapM (walk inner)
    return punct "[" :: (joinWith ", " elements ++ [punct "]"])
  | .genericInstantiation =>
    let arguments ← (t.typeArguments.getD []).mapM (walk inner)
    let target ← walk inner t.target
    return target ++ punct "<" :: (joinWith ", " arguments ++ [punct ">"])
  | .union | .intersection => s.operands m walk inner t
  | .functionSignature => s.function walk depth t
  | .constructorSignature =>
    let ps ← parameters walk inner (t.parameters.getD [])
    let result ← walk inner t.returnType
    return plain .operator "new " :: (ps ++ punct " => " :: result)
  | .conditional =>
    let check ← walk inner t.checkType
    let extended ← walk inner t.extendsType
    let (whenTrue, whenFalse) ← branchesOf h t
    let yes ← walk inner whenTrue
    let no ← walk inner whenFalse
    return check ++ plain .keyword " extends " ::
      (extended ++ punct " ? " :: (yes ++ punct " : " :: no))
  | .anonymousObject => s.object m walk inner t
  | .templateLiteral => template walk inner t
  | .unknown => return [plain .name (s.rawText t)]

/-! ## 4. The walk -/

/-- **The walk**, with the records open on the path. -/
def walk : (fuel : Nat) → (active : List TypeHandle) → Walk
  | 0, _, _, _ => throw (.fault .endless)
  | _ + 1, _, _, none => return [plain .name "?"]
  | n + 1, active, depth, some h =>
    if h ∈ active then return [.circular h]
    else s.node m (walk n (h :: active)) depth h

/-- **The tokens of a type expression**; a missing type shows as a question mark. -/
def tokens (t : Option TypeHandle) : Rendering (List Token) := s.walk m (m.types.size + 2) [] 0 t

/-- **The text of a type expression.** -/
def text (t : Option TypeHandle) : Rendering String := do
  Rendering.orFault (visibleText (← s.tokens m t))

end Style

end ApiReference
