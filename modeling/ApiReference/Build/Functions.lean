/-
  Functions and their overloads.

  A function symbol may have many declarations.  One of them documents the function as a whole, and
  with three or more declarations the others become overloads.

  1. `pickCanonical`    -- the declaration that documents the function;
  2. `subParameters`    -- dotted parameter tags;
  3. `fillSignature`    -- one record from one declaration;
  4. `consolidate`      -- the canonical record and its overloads.
-/
import ApiReference.Build.Fields

namespace ApiReference.Build

variable (cx : Context) (r : Requests)

/-! ## 1. The canonical declaration -/

/-- Declarations that can have a body. -/
def isConcrete : DeclarationKind → Bool
  | .functionDeclaration | .methodDeclaration | .constructor => true
  | _ => false

/-- A concrete declaration that is not ambient. -/
def isConcreteHere (d : DeclarationFacts) : Bool :=
  isConcrete d.kind && !d.modifiers.meets SyntaxFlags.ambient

/-- From this many declarations on, a function has overloads. -/
def overloadThreshold : Nat := 3

/-- **The declaration that documents a function**, among `first :: rest`.  Of fewer than three it is
    the first that is no implementation; of more, the first implementation, else the first concrete
    one; where there is no such declaration, the first. -/
def pickCanonical (first : DeclarationId) (rest : List DeclarationId) : DeclarationId :=
  let ds := first :: rest
  let facts := cx.facts.declaration
  if ds.length < overloadThreshold then (ds.find? (fun d => !(facts d).implementation)).getD first
  else match ds.find? (fun d => (facts d).implementation) with
    | some d => d
    | none => (ds.find? (fun d => isConcreteHere (facts d))).getD first

/-! ## 2. Parts of parameters -/

/-- The position of the first parameter whose name and a dot start the tag's name; a parameter whose
    name is no text is a fault. -/
def owner? (tagName : String) : List Parameter → Except Fault (Option Nat)
  | [] => .ok none
  | p :: ps => match p.name with
    | .str name =>
      if Text.startsWith tagName (name ++ ".") then .ok (some 0)
      else do return (← owner? tagName ps).map (· + 1)
    | _ => .error .notText

/-- One more part of the parameter at a position. -/
def addPart (i : Nat) (sub : Parameter) (ps : List Parameter) : List Parameter :=
  ps.modify i (·.addSub sub)

/-- **Dotted parameter tags** go to the parameter they describe a part of. -/
def subParameters (h : MemberHandle) : List ParamTag → Build PUnit
  | [] => pure ()
  | tag :: tags => do
    if tag.name.toList.contains '.' then
      match ← orFault (owner? tag.name ((← member h).parameters.getD [])) with
      | none => subParameters h tags
      | some i =>
        let type ← optionalType r tag.type
        let sub : Parameter := {
          name := .str (Text.afterLastDot tag.name)
          type
          summary := nonEmpty tag.text
          optional := tag.optional }
        modifyMember h (fun c => { c with parameters := c.parameters.map (addPart i sub) })
        subParameters h tags
    else subParameters h tags

/-! ## 3. One signature -/

/-- What kind of function a symbol is. -/
def functionKind (s : SymbolFacts) : MemberKind :=
  if s.flags.meets SymbolFlags.methods then .method
  else if s.flags.meets SymbolFlags.functions then .function
  else if s.flags.meets SymbolFlags.constructors || s.name == Facts.constructorName
    || s.name == Facts.newName then .constructor
  else if s.name == Facts.callName then .callSignature
  else .indexSignature

/-- What a declaration says about its result. -/
def describeResult (d : DeclarationFacts) (c : Member) : Member :=
  { c with docs := { c.docs with returnSummary := match d.returns with
    | .null => c.docs.returnSummary
    | v => some v } }

/-- A function assigned as a value: its signature is that of its type. -/
def fillAssigned (symbol : SymbolId) (d : DeclarationId) (h : MemberHandle) : Build PUnit := do
  let f := cx.facts
  fillBase cx r (f.symbol symbol).comment symbol (some d) .function h
  let t ← r.type (some (f.typeOfSymbol symbol))
  let type ← type t
  modifyMember h (fun c =>
    if type.kind = .functionSignature then
      { c with typeParameters := type.typeParameters, parameters := type.parameters
               returnType := type.returnType }
    else { c with parameters := some [], returnType := some t })
  modifyMember h (describeResult (f.declaration d))

/-- A function with a signature of its own. -/
def fillDeclared (symbol : SymbolId) (d : DeclarationId) (signature : SignatureId)
    (h : MemberHandle) : Build PUnit := do
  let f := cx.facts
  let facts := f.declaration d
  let sig := f.signature signature
  fillBase cx r sig.comment symbol (some d) (functionKind (f.symbol symbol)) h
  modifyMember h (fun c => { c with
    modifiers := (c.modifiers.insertIf (facts.modifiers.meets SyntaxFlags.asyncs) .async).insertIf
      facts.asterisk .generator })
  let generics ← typeParameters cx r sig.typeParameters
  modifyMember h (fun c => { c with typeParameters := generics })
  let ps ← sig.parameters.mapM (parameter cx r)
  modifyMember h (fun c => { c with parameters := some ps })
  let result ← r.type (some (.orError sig.returnType))
  modifyMember h (fun c => { c with returnType := some result })
  modifyMember h (describeResult facts)
  subParameters r h facts.paramTags

/-- **One function record from one declaration.** -/
def fillSignature (symbol : SymbolId) (d : DeclarationId) (h : MemberHandle) : Build PUnit :=
  let facts := cx.facts.declaration d
  match facts.hasParameters, facts.signature with
  | true, some signature => fillDeclared cx r symbol d signature h
  | _, _ => fillAssigned cx r symbol d h

/-! ## 4. Overloads -/

/-- A fresh record for each declaration other than the canonical one that has parameters. -/
def overloads (symbol : SymbolId) (canonical : DeclarationId) :
    List DeclarationId → Build (List MemberHandle)
  | [] => return []
  | d :: ds => do
    if d = canonical || !(cx.facts.declaration d).hasParameters then overloads symbol canonical ds
    else
      let o ← newMember
      fillSignature cx r symbol d o
      complete (.member o)
      return o :: (← overloads symbol canonical ds)

/-- Takes over the documentation that the last overload has and the function lacks, and lists the
    overloads when there are at least two. -/
def attachOverloads (h : MemberHandle) (os : List MemberHandle) : Build PUnit := do
  match os.getLast? with
  | none => pure ()
  | some last =>
    let l ← member last
    modifyMember h (fun c => { c with docs := c.docs.backfill l.docs })
  if 2 ≤ os.length then modifyMember h (fun c => { c with overloads := some (os.map some) })

/-- **A function record from all its declarations.** -/
def consolidate (symbol : SymbolId) (declarations : List DeclarationId) (h : MemberHandle) :
    Build PUnit := do
  let ds := if declarations.isEmpty then (cx.facts.valueDeclaration symbol).toList else declarations
  match ds with
  | [] => pure ()
  | first :: rest =>
    let canonical := pickCanonical cx first rest
    fillSignature cx r symbol canonical h
    if (first :: rest).length < overloadThreshold then pure ()
    else attachOverloads h (← overloads cx r symbol canonical (first :: rest))

end ApiReference.Build
