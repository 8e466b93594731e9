/-
  What a type record shows, apart from its parts.

  The tokens of a record are its own pieces and the tokens of its parts, put together by a few
  operations: lists with separators, shortened lists, parentheses, collapsed signatures.  The layout of
  a record is that expression.  The walk only says how a part is rendered, so whatever the operations
  keep holds of every record.

  1. `Manner`            -- how long lists and signatures are shown;
  2. `Layout`            -- pieces, parts and operations;
  3. `Style.layout`      -- the layout of a record;
  4. `node_eq`           -- the tokens of a record are those of its layout;
  5. `layout_congr`      -- what a layout reads;
  6. layouts whose rendering succeeds.
-/
import ApiReference.Render.Walk
import ApiReference.Proofs.Outcome
import Mathlib.Data.List.Forall2

namespace ApiReference

/-! ## 1. Manners -/

/-- **How long lists and nested signatures are shown.** -/
structure Manner where
  /-- the entries shown of a list with this separator -/
  shorten : String → List (List Token) → List (List Token)
  /-- the tokens shown of a function signature -/
  collapse : List Token → List Token

/-- Within limits, at a depth. -/
def Limits.manner (l : Limits) (depth : Nat) : Manner where
  shorten := l.truncate
  collapse tokens := if depth ≠ 0 && l.collapseNodes < tokens.length
    then [.folded .builtin "function" tokens] else tokens

/-- Everything is shown. -/
def Manner.whole : Manner := ⟨fun _ entries => entries, fun tokens => tokens⟩

/-! ## 2. Layouts -/

/-- How entries are put together. -/
inductive Joint where
  /-- one after the other -/
  | close
  /-- with a separator between any two -/
  | apart (separator : String)
  /-- with a separator, and shortened -/
  | limited (separator : String)

/-- The entries as one list. -/
def Joint.join (manner : Manner) : Joint → List (List Token) → List Token
  | .close, entries => entries.flatten
  | .apart separator, entries => joinWith separator entries
  | .limited separator, entries => joinWith separator (manner.shorten separator entries)

/-- **What a record shows**: pieces of its own and parts. -/
inductive Layout where
  | own (kind : TokenKind) (text : Value) (member : Option MemberHandle)
  | part (p : Option TypeHandle)
  | list (joint : Joint) (entries : List Layout)
  /-- the one before the other, worked out in the opposite order -/
  | swapped (first second : Layout)
  /-- in parentheses -/
  | enclosed (l : Layout)
  /-- a function signature -/
  | signature (l : Layout)
  | stop (cause : Stop)

namespace Layout

/-- The induction on layouts, with the hypothesis for every entry of a list. -/
@[elab_as_elim, induction_eliminator]
theorem induction {motive : Layout → Prop}
    (own : ∀ kind text member, motive (.own kind text member))
    (part : ∀ p, motive (.part p))
    (list : ∀ joint entries, (∀ l ∈ entries, motive l) → motive (.list joint entries))
    (swapped : ∀ first second, motive first → motive second → motive (.swapped first second))
    (enclosed : ∀ l, motive l → motive (.enclosed l))
    (signature : ∀ l, motive l → motive (.signature l))
    (stop : ∀ cause, motive (.stop cause)) (l : Layout) : motive l :=
  @Layout.rec motive (fun entries => ∀ l ∈ entries, motive l)
    own part list swapped enclosed signature stop (fun _ h => absurd h List.not_mem_nil)
    (fun _ _ h hs => List.forall_mem_cons.2 ⟨h, hs⟩) l

section Render

variable (manner : Manner) (walk : Option TypeHandle → Rendering (List Token))

mutual

/-- **The tokens of a layout**, given the tokens of its parts. -/
def render : Layout → Rendering (List Token)
  | .own kind text member => pure [.piece kind text member]
  | .part p => walk p
  | .list joint entries => do return joint.join manner (← renderAll entries)
  | .swapped first second => do
    let after ← render second
    let before ← render first
    return before ++ after
  | .enclosed l => do return parenthesize (← render l)
  | .signature l => do return manner.collapse (← render l)
  | .stop cause => throw cause

/-- The tokens of entries, in order. -/
def renderAll : List Layout → Rendering (List (List Token))
  | [] => pure []
  | l :: ls => do
    let tokens ← render l
    let rest ← renderAll ls
    return tokens :: rest

end

theorem renderAll_eq_mapM (ls : List Layout) : renderAll manner walk ls = ls.mapM (render manner walk) := by
  induction ls with
  | nil => rfl
  | cons l ls ih => rw [renderAll, ih, List.mapM_cons]

end Render

mutual

/-- **The leaves of a layout**, in the order in which they are shown: pieces, parts and stops. -/
def leaves : Layout → List Layout
  | .list _ entries => leavesAll entries
  | .swapped first second => leaves first ++ leaves second
  | .enclosed l | .signature l => leaves l
  | .own kind text member => [.own kind text member]
  | .part p => [.part p]
  | .stop cause => [.stop cause]

/-- The leaves of entries. -/
def leavesAll : List Layout → List Layout
  | [] => []
  | l :: ls => leaves l ++ leavesAll ls

end

theorem leavesAll_eq_flatMap (ls : List Layout) : leavesAll ls = ls.flatMap leaves := by
  induction ls with
  | nil => rfl
  | cons l ls ih => rw [leavesAll, ih, List.flatMap_cons]

theorem leaves_list (joint : Joint) (ls : List Layout) :
    leaves (.list joint ls) = ls.flatMap leaves := by
  rw [leaves, leavesAll_eq_flatMap]

/-! ## 3. Records -/

/-- One after the other. -/
def seq (ls : List Layout) : Layout := .list .close ls

/-- A piece of text in a role. -/
def plain (kind : TokenKind) (text : String) : Layout := .own kind (.str text) none

/-- Punctuation. -/
def punct (text : String) : Layout := plain .punctuation text

variable (m : Model)

/-- A part in parentheses when it is compound. -/
def wrapped (p : Option TypeHandle) : Layout :=
  match p with
  | some h => if (m.type h).kind.isCompound then .enclosed (.part (some h)) else .part (some h)
  | none => .part none

/-- One operand of a union or intersection. -/
def operand (other : TypeKind) (p : Option TypeHandle) : Layout :=
  match p with
  | some h =>
    let kind := (m.type h).kind
    if kind = .functionSignature || kind = .constructorSignature || kind = other
      then .enclosed (.part (some h)) else .part (some h)
  | none => seq [.part none, .stop (.fault .noField)]

/-- The operands of a union or intersection. -/
def operands (t : TypeExpr) : Layout :=
  let isUnion := t.kind = .union
  let other := if isUnion then TypeKind.intersection else TypeKind.union
  .list (.limited (if isUnion then " | " else " & ")) ((t.operands.getD []).map (operand m other))

/-- One parameter of a signature. -/
def parameter (p : Parameter) : Layout :=
  seq ((if p.rest then [punct "..."] else []) ++ [.own .property p.name none]
    ++ (if p.optional then [plain .operator "?"] else []) ++ [punct ": ", .part p.type])

/-- The parameters of a signature, in parentheses. -/
def parameters (ps : List Parameter) : Layout :=
  seq [punct "(", .list (.apart ", ") (ps.map parameter), punct ")"]

/-- A part that may be missing, after a piece. -/
def optionalPart (first : Layout) : Option TypeHandle → List Layout
  | none => []
  | some h => [first, .part (some h)]

/-- One type parameter of a signature. -/
def typeParameter (p : TypeParameter) : Layout :=
  seq (plain .name p.name :: (optionalPart (plain .keyword " extends ") p.constraint
    ++ optionalPart (plain .operator " = ") p.default))

/-- The type parameters of a signature. -/
def generics : Option (List TypeParameter) → List Layout
  | none => []
  | some [] => []
  | some ps => [punct "<", .list (.apart ", ") (ps.map typeParameter), punct ">"]

/-- A function signature. -/
def function (t : TypeExpr) : Layout :=
  .signature (seq (generics t.typeParameters
    ++ [parameters (t.parameters.getD []), punct " => ", .part t.returnType]))

/-- The key of an index signature: its first parameter. -/
def indexKey : List Parameter → List Layout
  | [] => []
  | p :: _ => [.own .property p.name none, punct ": ", .part p.type]

/-- The name of a member as the key of an object type. -/
def propertyName (h : MemberHandle) (c : Member) : Layout :=
  match c.name with
  | .str name => .own .property (.str ((if c.kind = .module then "..." else "") ++ name)) (some h)
  | _ => .stop (.fault .notText)

/-- The type of a member of an object type, if it has one. -/
def propertyType (c : Member) : List Layout :=
  match c.type with
  | none => []
  | some t => (if c.has .optional then [plain .operator "?"] else []) ++ [punct ": ", .part (some t)]

/-- One member of an object type. -/
def objectMember (child : Option MemberHandle) : Layout :=
  match child with
  | none => .stop (.fault .noField)
  | some h =>
    let c := m.member h
    let ps := c.parameters.getD []
    let returns := [punct ": ", .part c.returnType]
    match c.kind with
    | .callSignature => seq (parameters ps :: returns)
    | .constructor => seq (plain .operator "new " :: parameters ps :: returns)
    | .indexSignature => seq (punct "[" :: (indexKey ps ++ punct "]" :: returns))
    | .method | .function => seq (propertyName h c :: parameters ps :: returns)
    | _ => seq (propertyName h c :: propertyType c)

/-- An anonymous object type. -/
def object (t : TypeExpr) : Layout :=
  match t.members.getD [] with
  | [] => punct "\x7b\x7d"
  | children => seq [punct "\x7b ", .list (.limited "; ") (children.map (objectMember m)), punct " \x7d"]

/-- One span of a template literal. -/
def span : Span → Layout
  | .text text => plain .string (Style.templateText text)
  | .type p => seq [punct "$\x7b", .part p, punct "\x7d"]

/-- A template literal. -/
def template (t : TypeExpr) : Layout :=
  seq (plain .string "\x60" :: ((t.spans.getD []).map span ++ [plain .string "\x60"]))

/-- A conditional type; branches that are not resolved stop the rendering. -/
def conditional (h : TypeHandle) (t : TypeExpr) : Layout :=
  seq ([.part t.checkType, plain .keyword " extends ", .part t.extendsType, punct " ? "] ++
    match Style.branchesOf h t with
    | .ok (yes, no) => [.part yes, punct " : ", .part no]
    | .error cause => [.stop cause])

end Layout

namespace Style

open Layout

variable (s : Style) (m : Model)

/-- The name of the member that a type refers to, or the checker's own text. -/
def nameLayout (t : TypeExpr) : Layout :=
  match t.member with
  | none => .plain .name (s.rawText t)
  | some h => .own .name (m.member h).name (some h)

/-- **The layout of a record.** -/
def layout (h : TypeHandle) : Layout :=
  let t := m.type h
  match t.kind with
  | .native => .plain .builtin (t.name.getD "")
  | .error => .plain .name "?"
  | .numberLiteral | .bigintLiteral => .plain .number (t.value.getD "")
  | .stringLiteral => .plain .string (Text.asciiQuoted (t.value.getD ""))
  | .classRef | .interfaceRef | .enumRef | .aliasRef | .typeParameterRef => s.nameLayout m t
  | .thisRef => .own .builtin (.str "this") t.member
  | .enumMemberRef =>
    match t.member.bind (fun c => (m.member c).parent) with
    | none => s.nameLayout m t
    | some p => .seq [.own .name (m.member p).name (some p), .punct ".", s.nameLayout m t]
  | .typeOf => .seq [.plain .operator "typeof ", s.nameLayout m t]
  | .array => .seq [.wrapped m t.element, .punct "[]"]
  | .keyOf => .seq [.plain .operator "keyof ", .wrapped m t.target]
  | .indexedAccess => .seq [.wrapped m t.target, .punct "[", .part t.key, .punct "]"]
  | .tuple => .seq [.punct "[", .list (.apart ", ") ((t.elements.getD []).map .part), .punct "]"]
  | .genericInstantiation => .swapped (.part t.target)
    (.seq [.punct "<", .list (.apart ", ") ((t.typeArguments.getD []).map .part), .punct ">"])
  | .union | .intersection => .operands m t
  | .functionSignature => .function t
  | .constructorSignature =>
    .seq [.plain .operator "new ", .parameters (t.parameters.getD []), .punct " => ", .part t.returnType]
  | .conditional => .conditional h t
  | .anonymousObject => .object m t
  | .templateLiteral => .template t
  | .unknown => .plain .name (s.rawText t)

end Style

/-! ## 4. The tokens of a record -/

/-- Nothing is done with the result of a rendering that stopped. -/
@[simp] theorem Rendering.map_throw {α β : Type} (f : α → β) (cause : Stop) :
    f <$> (throw cause : Rendering α) = throw cause := rfl

namespace Layout

section Equations

variable {manner : Manner} {W : Option TypeHandle → Rendering (List Token)}

@[simp] theorem render_own (kind : TokenKind) (text : Value) (member : Option MemberHandle) :
    render manner W (.own kind text member) = pure [.piece kind text member] := rfl

@[simp] theorem render_plain (kind : TokenKind) (text : String) :
    render manner W (plain kind text) = pure [Token.plain kind text] := rfl

@[simp] theorem render_punct (text : String) :
    render manner W (punct text) = pure [Token.punct text] := rfl

@[simp] theorem render_part (p : Option TypeHandle) : render manner W (.part p) = W p := rfl

@[simp] theorem render_stop (cause : Stop) : render manner W (.stop cause) = throw cause := rfl

@[simp] theorem render_swapped (first second : Layout) :
    render manner W (.swapped first second) = (do
      let after ← render manner W second
      let before ← render manner W first
      return before ++ after) := rfl

@[simp] theorem render_enclosed (l : Layout) :
    render manner W (.enclosed l) = (do return parenthesize (← render manner W l)) := rfl

@[simp] theorem render_signature (l : Layout) :
    render manner W (.signature l) = (do return manner.collapse (← render manner W l)) := rfl

@[simp] theorem render_seq (ls : List Layout) :
    render manner W (seq ls) = (do return (← renderAll manner W ls).flatten) := rfl

@[simp] theorem render_apart (separator : String) (ls : List Layout) :
    render manner W (.list (.apart separator) ls) =
      (do return joinWith separator (← renderAll manner W ls)) := rfl

@[simp] theorem render_limited (separator : String) (ls : List Layout) :
    render manner W (.list (.limited separator) ls) =
      (do return joinWith separator (manner.shorten separator (← renderAll manner W ls))) := rfl

@[simp] theorem renderAll_nil : renderAll manner W [] = pure [] := rfl

@[simp] theorem renderAll_cons (l : Layout) (ls : List Layout) :
    renderAll manner W (l :: ls) = (do
      let tokens ← render manner W l
      let rest ← renderAll manner W ls
      return tokens :: rest) := rfl

theorem renderAll_append (ls ls' : List Layout) :
    renderAll manner W (ls ++ ls') = (do
      let before ← renderAll manner W ls
      let after ← renderAll manner W ls'
      return before ++ after) := by
  simp only [renderAll_eq_mapM, List.mapM_append]

/-- Entries made from data are rendered one datum at a time. -/
theorem renderAll_map {α : Type} {f : α → Layout} {g : α → Rendering (List Token)}
    (h : ∀ x, render manner W (f x) = g x) (xs : List α) :
    renderAll manner W (xs.map f) = xs.mapM g := by
  rw [renderAll_eq_mapM, List.mapM_map]
  exact congrArg (xs.mapM ·) (funext h)

end Equations

variable {manner : Manner} {walk : Walk} {depth : Nat}

theorem render_parameter (p : Parameter) :
    render manner (walk depth) (parameter p) = Style.parameter walk depth p := by
  unfold parameter Style.parameter
  cases p.rest <;> cases p.optional <;> simp

theorem render_parameters (ps : List Parameter) :
    render manner (walk depth) (parameters ps) = Style.parameters walk depth ps := by
  simp [parameters, Style.parameters, renderAll_map render_parameter]

theorem render_typeParameter (p : TypeParameter) :
    render manner (walk depth) (typeParameter p) = Style.typeParameter walk depth p := by
  unfold typeParameter Style.typeParameter
  cases p.constraint <;> cases p.default <;> simp [optionalPart]

theorem render_function (s : Style) (t : TypeExpr) :
    render (s.limits.manner depth) (walk (depth + 1)) (function t) = s.function walk depth t := by
  have hcollapse : ∀ tokens, (s.limits.manner depth).collapse tokens =
      if depth ≠ 0 && s.limits.collapseNodes < tokens.length
        then [.folded .builtin "function" tokens] else tokens := fun _ => rfl
  unfold function Style.function
  simp only [← hcollapse]
  cases t.typeParameters with
  | none => simp [generics, render_parameters]
  | some ps =>
    cases ps with
    | nil => simp [generics, render_parameters]
    | cons p ps =>
      have hgenerics : renderAll (s.limits.manner depth) (walk (depth + 1))
          ((p :: ps).map typeParameter) = (p :: ps).mapM (Style.typeParameter walk (depth + 1)) :=
        renderAll_map render_typeParameter (p :: ps)
      simp [generics, render_parameters, -List.map_cons, hgenerics]

theorem render_wrapped (m : Model) (p : Option TypeHandle) :
    render manner (walk depth) (wrapped m p) = Style.wrapped m walk depth p := by
  unfold wrapped Style.wrapped
  cases p with
  | none => simp
  | some h => by_cases hkind : (m.type h).kind.isCompound <;> simp [hkind]

theorem render_operand (m : Model) (other : TypeKind) (p : Option TypeHandle) :
    render manner (walk depth) (operand m other p) = (do
      let tokens ← walk depth p
      match p with
      | none => throw (.fault .noField)
      | some h =>
        let kind := (m.type h).kind
        return if kind = .functionSignature || kind = .constructorSignature || kind = other
          then parenthesize tokens else tokens) := by
  unfold operand
  cases p with
  | none => simp
  | some h =>
    dsimp only
    split <;> simp

theorem render_operands (s : Style) (m : Model) (t : TypeExpr) :
    render (s.limits.manner depth) (walk (depth + 1)) (operands m t) =
      s.operands m walk (depth + 1) t := by
  unfold operands Style.operands
  dsimp only
  rw [render_limited, renderAll_map (render_operand m _)]
  rfl

theorem render_propertyName (h : MemberHandle) (c : Member) :
    render manner (walk depth) (propertyName h c) = (do return [← Style.propertyName h c]) := by
  unfold propertyName Style.propertyName
  cases c.name <;> simp

theorem render_objectMember (m : Model) (child : Option MemberHandle) :
    render manner (walk depth) (objectMember m child) = Style.objectMember m walk depth child := by
  unfold objectMember Style.objectMember
  cases child with
  | none => rfl
  | some h =>
    have hindex : ∀ ps, renderAll manner (walk depth) (indexKey ps) >>= (fun l => pure l.flatten) =
        Style.indexKey walk depth ps := by
      intro ps
      cases ps <;> simp [indexKey, Style.indexKey]
    dsimp only
    cases (m.member h).kind <;>
      simp [render_parameters, render_propertyName, Style.returns, renderAll_append, ← hindex]
    all_goals
      refine congrArg _ (funext fun name => ?_)
      unfold propertyType
      cases (m.member h).type with
      | none => simp
      | some t => cases (m.member h).has .optional <;> simp

theorem render_object (s : Style) (m : Model) (t : TypeExpr) :
    render (s.limits.manner depth) (walk (depth + 1)) (object m t) = s.object m walk (depth + 1) t := by
  unfold object Style.object
  cases t.members.getD [] with
  | nil => simp
  | cons c cs =>
    have hentries : renderAll (s.limits.manner depth) (walk (depth + 1))
        ((c :: cs).map (objectMember m)) = (c :: cs).mapM (Style.objectMember m walk (depth + 1)) :=
      renderAll_map (render_objectMember m) (c :: cs)
    simp only [render_seq, renderAll_cons, render_punct, render_limited, hentries, renderAll_nil]
    simp [Limits.manner]

theorem render_span (x : Span) :
    render manner (walk depth) (span x) = (match x with
      | .text text => pure [Token.plain .string (Style.templateText text)]
      | .type h => do
        let type ← walk depth h
        pure (Token.punct "$\x7b" :: (type ++ [Token.punct "\x7d"]))) := by
  cases x <;> simp [span]

theorem render_template (t : TypeExpr) :
    render manner (walk depth) (template t) = Style.template walk depth t := by
  calc render manner (walk depth) (template t)
      = (do
          let spans ← (t.spans.getD []).mapM fun x => match x with
            | .text text => pure [Token.plain .string (Style.templateText text)]
            | .type h => do
              let type ← walk depth h
              pure (Token.punct "$\x7b" :: (type ++ [Token.punct "\x7d"]))
          pure (Token.plain .string "\x60" :: (spans.flatten ++ [Token.plain .string "\x60"]))) := by
        simp [template, renderAll_append, renderAll_map render_span]
    _ = Style.template walk depth t := rfl

theorem render_conditional (h : TypeHandle) (t : TypeExpr) :
    render manner (walk depth) (conditional h t) = (do
      let check ← walk depth t.checkType
      let extended ← walk depth t.extendsType
      let (whenTrue, whenFalse) ← Style.branchesOf h t
      let yes ← walk depth whenTrue
      let no ← walk depth whenFalse
      return check ++ Token.plain .keyword " extends " ::
        (extended ++ Token.punct " ? " :: (yes ++ Token.punct " : " :: no))) := by
  unfold conditional
  cases Style.branchesOf h t with
  | ok pair =>
    simp
    rfl
  | error cause =>
    simp
    rfl

end Layout

namespace Style

open Layout

variable (s : Style) (m : Model)

theorem render_nameLayout {manner : Manner} {W : Option TypeHandle → Rendering (List Token)}
    (t : TypeExpr) : render manner W (s.nameLayout m t) = pure [s.memberName m t] := by
  unfold nameLayout memberName
  cases t.member <;> simp

/-- **The tokens of a record are those of its layout.** -/
theorem node_eq (walk : Walk) (depth : Nat) (h : TypeHandle) :
    s.node m walk depth h = (s.layout m h).render (s.limits.manner depth) (walk (depth + 1)) := by
  unfold node layout
  dsimp only
  cases (m.type h).kind with
  | enumMemberRef =>
    dsimp only
    cases (m.type h).member.bind fun c => (m.member c).parent <;> simp [render_nameLayout]
  | tuple => simp [renderAll_map render_part]
  | genericInstantiation => simp [renderAll_map render_part]
  | union => exact (render_operands s m _).symm
  | intersection => exact (render_operands s m _).symm
  | functionSignature => exact (render_function s _).symm
  | conditional => exact (render_conditional h _).symm
  | anonymousObject => exact (render_object s m _).symm
  | templateLiteral => exact (render_template _).symm
  | _ => simp [render_nameLayout, render_wrapped, render_parameters]

end Style

/-! ## 5. What a layout reads -/

namespace Layout

variable {m m' : Model}

theorem wrapped_congr (hkind : ∀ p, (m'.type p).kind = (m.type p).kind) (p : Option TypeHandle) :
    wrapped m' p = wrapped m p := by
  cases p with
  | none => rfl
  | some h => simp only [wrapped, hkind]

theorem operands_congr (hkind : ∀ p, (m'.type p).kind = (m.type p).kind) (t : TypeExpr) :
    operands m' t = operands m t := by
  have hone : operand m' = operand m := by
    funext other p
    cases p with
    | none => rfl
    | some h => simp only [operand, hkind]
  simp only [operands, hone]

theorem object_congr (hmember : ∀ c, m'.member c = m.member c) (t : TypeExpr) :
    object m' t = object m t := by
  have hone : objectMember m' = objectMember m := by
    funext child
    cases child with
    | none => rfl
    | some h => simp only [objectMember, hmember]
  simp only [object, hone]

end Layout

namespace Style

open Layout

variable (s : Style) {m m' : Model}

theorem layout_conditional {h : TypeHandle} (hkind : (m.type h).kind = .conditional) :
    s.layout m h = .conditional h (m.type h) := by
  unfold layout
  dsimp only
  rw [hkind]

/-- **A record without branches** shows the same where it has the same fields, its parts have the same
    kinds, and members are the same. -/
theorem layout_congr (hmember : ∀ c, m'.member c = m.member c)
    (hkind : ∀ p, (m'.type p).kind = (m.type p).kind) {h : TypeHandle}
    {r : Option (Option TypeHandle × Option TypeHandle)}
    (hfields : m'.type h = { m.type h with resolved := r })
    (hraw : s.rawText (m'.type h) = s.rawText (m.type h)) (hne : (m.type h).kind ≠ .conditional) :
    s.layout m' h = s.layout m h := by
  have hname : s.nameLayout m' (m'.type h) = s.nameLayout m (m.type h) := by
    unfold nameLayout
    rw [hraw, hfields]
    simp only [hmember]
  unfold layout
  dsimp only
  rw [hname, hraw, hfields]
  dsimp only
  cases hk : (m.type h).kind with
  | conditional => exact absurd hk hne
  | enumMemberRef => simp only [hmember]
  | array => simp only [wrapped_congr hkind]
  | keyOf => simp only [wrapped_congr hkind]
  | indexedAccess => simp only [wrapped_congr hkind]
  | union =>
    dsimp only
    rw [operands_congr hkind, ← hk]
    rfl
  | intersection =>
    dsimp only
    rw [operands_congr hkind, ← hk]
    rfl
  | anonymousObject => exact object_congr hmember _
  | _ => rfl

end Style

/-! ## 6. Success -/

namespace Layout

variable {manner : Manner} {W : Option TypeHandle → Rendering (List Token)}

/-- Entries are rendered if each of them is. -/
theorem renderAll_eq_ok {ls : List Layout} {es : List (List Token)} :
    renderAll manner W ls = .ok es ↔ ls.Forall₂ (fun l e => render manner W l = .ok e) es := by
  induction ls generalizing es with
  | nil =>
    rw [List.forall₂_nil_left_iff]
    exact ⟨fun h => (Except.ok.inj h).symm, fun h => congrArg _ h.symm⟩
  | cons l ls ih =>
    rw [renderAll_cons, bind_eq_ok, List.forall₂_cons_left_iff]
    refine exists_congr fun tokens => ?_
    rw [map_eq_ok, ← exists_and_left]
    exact exists_congr fun rest => and_congr_right fun _ => and_congr ih eq_comm

theorem render_list_eq_ok {joint : Joint} {ls : List Layout} {ts : List Token} :
    render manner W (.list joint ls) = .ok ts ↔
      ∃ es, ls.Forall₂ (fun l e => render manner W l = .ok e) es ∧ joint.join manner es = ts := by
  rw [render, map_eq_ok]
  exact exists_congr fun es => and_congr_left fun _ => renderAll_eq_ok

theorem render_swapped_eq_ok {first second : Layout} {ts : List Token} :
    render manner W (.swapped first second) = .ok ts ↔
      ∃ before after, render manner W first = .ok before ∧ render manner W second = .ok after ∧
        before ++ after = ts := by
  rw [render_swapped, bind_eq_ok]
  constructor
  · rintro ⟨after, hsecond, h⟩
    obtain ⟨before, hfirst, he⟩ := map_eq_ok.1 h
    exact ⟨before, after, hfirst, hsecond, he⟩
  · rintro ⟨before, after, hfirst, hsecond, he⟩
    exact ⟨after, hsecond, map_eq_ok.2 ⟨before, hfirst, he⟩⟩

theorem render_enclosed_eq_ok {l : Layout} {ts : List Token} :
    render manner W (.enclosed l) = .ok ts ↔
      ∃ us, render manner W l = .ok us ∧ parenthesize us = ts :=
  map_eq_ok

theorem render_signature_eq_ok {l : Layout} {ts : List Token} :
    render manner W (.signature l) = .ok ts ↔
      ∃ us, render manner W l = .ok us ∧ manner.collapse us = ts :=
  map_eq_ok

/-- **A layout without stops is rendered if its parts are.** -/
theorem exists_render {l : Layout} (hstop : ∀ cause, .stop cause ∉ l.leaves)
    (hpart : ∀ p, .part p ∈ l.leaves → ∃ ts, W p = .ok ts) : ∃ ts, render manner W l = .ok ts := by
  induction l with
  | own kind text member => exact ⟨_, rfl⟩
  | part p => exact hpart p List.mem_cons_self
  | stop cause => exact absurd List.mem_cons_self (hstop cause)
  | list joint ls ih =>
    simp only [leaves_list, List.mem_flatMap, not_exists, not_and] at hstop hpart
    have hall : ∀ l ∈ ls, ∃ ts, render manner W l = .ok ts := fun l hl =>
      ih l hl (fun cause => hstop cause l hl) fun p hp => hpart p ⟨l, hl, hp⟩
    have hentries : ∃ es, ls.Forall₂ (fun l e => render manner W l = .ok e) es := by
      clear ih hstop hpart
      induction ls with
      | nil => exact ⟨[], .nil⟩
      | cons l ls ih =>
        obtain ⟨e, he⟩ := hall l List.mem_cons_self
        obtain ⟨es, hes⟩ := ih fun x hx => hall x (List.mem_cons_of_mem l hx)
        exact ⟨e :: es, .cons he hes⟩
    obtain ⟨es, hes⟩ := hentries
    exact ⟨_, render_list_eq_ok.2 ⟨es, hes, rfl⟩⟩
  | swapped first second ihf ihs =>
    simp only [leaves, List.mem_append, not_or] at hstop hpart
    obtain ⟨before, hbefore⟩ := ihf (fun cause => (hstop cause).1) fun p hp => hpart p (.inl hp)
    obtain ⟨after, hafter⟩ := ihs (fun cause => (hstop cause).2) fun p hp => hpart p (.inr hp)
    exact ⟨_, render_swapped_eq_ok.2 ⟨before, after, hbefore, hafter, rfl⟩⟩
  | enclosed l ih =>
    obtain ⟨ts, hts⟩ := ih hstop hpart
    exact ⟨_, render_enclosed_eq_ok.2 ⟨ts, hts, rfl⟩⟩
  | signature l ih =>
    obtain ⟨ts, hts⟩ := ih hstop hpart
    exact ⟨_, render_signature_eq_ok.2 ⟨ts, hts, rfl⟩⟩

end Layout

end ApiReference
