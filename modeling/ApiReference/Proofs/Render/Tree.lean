/-
  Type trees, and how they are written.

  A tree is written as a sequence of words and marks: what a record with these parts shows when nothing
  of it is folded.  Parentheses stand around some operands only, so some trees are written alike; the
  legible ones have no operand that lacks them.

  1. `TypeTree`          -- the trees;
  2. `flatten`           -- unions in unions, and intersections in intersections, dissolved;
  3. `lexemes`           -- how a tree is written;
  4. `Legible`           -- no operand lacks parentheses;
  5. `Legible.glued`     -- the words and marks of a legible tree can be told apart.
-/
import ApiReference.Proofs.Render.Lexeme
import ApiReference.Model.Kinds

namespace ApiReference

open Lexeme

/-! ## 1. Trees -/

/-- A parameter of a signature, with its type. -/
structure ParameterOf (α : Type) where
  name : String
  rest : Bool
  optional : Bool
  type : α

/-- A type parameter of a signature, with its types. -/
structure GenericOf (α : Type) where
  name : String
  constraint : Option α
  default : Option α

/-- The parameter with another type. -/
def ParameterOf.map {α β : Type} (f : α → β) (p : ParameterOf α) : ParameterOf β :=
  ⟨p.name, p.rest, p.optional, f p.type⟩

/-- The type parameter with other types. -/
def GenericOf.map {α β : Type} (f : α → β) (g : GenericOf α) : GenericOf β :=
  ⟨g.name, g.constraint.map f, g.default.map f⟩

/-- **A finite type.**  The type parameters of a constructor signature are not shown. -/
inductive TypeTree where
  | native (name : String)
  | array (element : TypeTree)
  | tuple (elements : List TypeTree)
  | keyOf (target : TypeTree)
  | indexedAccess (target key : TypeTree)
  | union (operands : List TypeTree)
  | intersection (operands : List TypeTree)
  | conditional (check extended yes no : TypeTree)
  | function (generics : List (GenericOf TypeTree)) (parameters : List (ParameterOf TypeTree))
      (result : TypeTree)
  | constructor (parameters : List (ParameterOf TypeTree)) (result : TypeTree)

namespace TypeTree

/-- The kind of a record with this tree. -/
def kind : TypeTree → TypeKind
  | .native _ => .native
  | .array _ => .array
  | .tuple _ => .tuple
  | .keyOf _ => .keyOf
  | .indexedAccess _ _ => .indexedAccess
  | .union _ => .union
  | .intersection _ => .intersection
  | .conditional _ _ _ _ => .conditional
  | .function _ _ _ => .functionSignature
  | .constructor _ _ => .constructorSignature

/-! ## 2. Nested unions and intersections -/

/-- The operands that a tree brings into a union. -/
def inUnion : TypeTree → List TypeTree
  | .union ts => ts
  | t => [t]

/-- The operands that a tree brings into an intersection. -/
def inIntersection : TypeTree → List TypeTree
  | .intersection ts => ts
  | t => [t]

mutual

/-- **The tree with unions directly in unions dissolved**, and intersections in intersections. -/
def flatten : TypeTree → TypeTree
  | .native name => .native name
  | .array e => .array (flatten e)
  | .tuple es => .tuple (flattenAll es)
  | .keyOf t => .keyOf (flatten t)
  | .indexedAccess t k => .indexedAccess (flatten t) (flatten k)
  | .union ts => .union ((flattenAll ts).flatMap inUnion)
  | .intersection ts => .intersection ((flattenAll ts).flatMap inIntersection)
  | .conditional c e y n => .conditional (flatten c) (flatten e) (flatten y) (flatten n)
  | .function gs ps r => .function (flattenGenerics gs) (flattenParameters ps) (flatten r)
  | .constructor ps r => .constructor (flattenParameters ps) (flatten r)

def flattenAll : List TypeTree → List TypeTree
  | [] => []
  | t :: ts => flatten t :: flattenAll ts

def flattenParameters : List (ParameterOf TypeTree) → List (ParameterOf TypeTree)
  | [] => []
  | ⟨name, rest, optional, type⟩ :: ps =>
    ⟨name, rest, optional, flatten type⟩ :: flattenParameters ps

def flattenGenerics : List (GenericOf TypeTree) → List (GenericOf TypeTree)
  | [] => []
  | ⟨name, constraint, default⟩ :: gs =>
    ⟨name, flattenOption constraint, flattenOption default⟩ :: flattenGenerics gs

def flattenOption : Option TypeTree → Option TypeTree
  | none => none
  | some t => some (flatten t)

end

theorem flattenAll_eq_map (ts : List TypeTree) : flattenAll ts = ts.map flatten := by
  induction ts with
  | nil => rfl
  | cons t ts ih => rw [flattenAll, ih, List.map_cons]

theorem flattenParameters_eq_map (ps : List (ParameterOf TypeTree)) :
    flattenParameters ps = ps.map (ParameterOf.map flatten) := by
  induction ps with
  | nil => rfl
  | cons p ps ih => rw [flattenParameters, ih, List.map_cons, ParameterOf.map]

theorem flattenOption_eq_map (o : Option TypeTree) : flattenOption o = o.map flatten := by
  cases o <;> rfl

theorem flattenGenerics_eq_map (gs : List (GenericOf TypeTree)) :
    flattenGenerics gs = gs.map (GenericOf.map flatten) := by
  induction gs with
  | nil => rfl
  | cons g gs ih =>
    rw [flattenGenerics, ih, List.map_cons, GenericOf.map, flattenOption_eq_map, flattenOption_eq_map]

/-! ## 3. Writing -/

end TypeTree

/-- Entries with a mark between any two. -/
def joined (separator : Lexeme) (entries : List (List Lexeme)) : List Lexeme :=
  [separator].intercalate entries

theorem joined_singleton (separator : Lexeme) (e : List Lexeme) : joined separator [e] = e :=
  List.append_nil e

theorem joined_cons (separator : Lexeme) (e : List Lexeme) {es : List (List Lexeme)} (h : es ≠ []) :
    joined separator (e :: es) = e ++ separator :: joined separator es := by
  cases es with
  | nil => exact absurd rfl h
  | cons f fs => rfl

/-- In parentheses. -/
def enclosed (ls : List Lexeme) : List Lexeme := .leftParen :: (ls ++ [.rightParen])

/-- A parameter, given how its type is written. -/
def ParameterOf.lexemes (p : ParameterOf (List Lexeme)) : List Lexeme :=
  (if p.rest then [.dots] else []) ++ .word p.name ::
    ((if p.optional then [.mayMiss] else []) ++ .colon :: p.type)

/-- A mark and what follows it, or nothing. -/
def after (mark : Lexeme) : Option (List Lexeme) → List Lexeme
  | none => []
  | some ls => mark :: ls

/-- A type parameter, given how its types are written. -/
def GenericOf.lexemes (g : GenericOf (List Lexeme)) : List Lexeme :=
  .word g.name :: (after .extending g.constraint ++ after .equals g.default)

/-- The type parameters of a signature; without any, there are no brackets. -/
def genericList : List (List Lexeme) → List Lexeme
  | [] => []
  | gs => .leftAngle :: (joined .comma gs ++ [.rightAngle])

/-- The parameters of a signature, in parentheses. -/
def parameterList (ps : List (List Lexeme)) : List Lexeme :=
  .leftParen :: (joined .comma ps ++ [.rightParen])

/-- The parameters and the result of a signature. -/
def signature (ps : List (List Lexeme)) (result : List Lexeme) : List Lexeme :=
  parameterList ps ++ .arrow :: result

namespace TypeTree

/-- As the part of an array, of `keyof` or of an indexed access. -/
def asPart (t : TypeTree) (ls : List Lexeme) : List Lexeme :=
  if t.kind.isCompound then enclosed ls else ls

/-- As an operand of a union or an intersection, where the other of the two is enclosed. -/
def asOperand (other : TypeKind) (t : TypeTree) (ls : List Lexeme) : List Lexeme :=
  if t.kind = .functionSignature || t.kind = .constructorSignature || t.kind = other then enclosed ls
  else ls

mutual

/-- **How a tree is written.** -/
def lexemes : TypeTree → List Lexeme
  | .native name => [.word name]
  | .array e => e.asPart (lexemes e) ++ [.leftBracket, .rightBracket]
  | .tuple es => .leftBracket :: (joined .comma (lexemesAll es) ++ [.rightBracket])
  | .keyOf t => .keyOf :: t.asPart (lexemes t)
  | .indexedAccess t k => t.asPart (lexemes t) ++ .leftBracket :: (lexemes k ++ [.rightBracket])
  | .union ts => joined .bar (operands .intersection ts)
  | .intersection ts => joined .ampersand (operands .union ts)
  | .conditional c e y n =>
    lexemes c ++ .extending :: (lexemes e ++ .whenTrue :: (lexemes y ++ .whenFalse :: lexemes n))
  | .function gs ps r => genericList (generics gs) ++ signature (parameters ps) (lexemes r)
  | .constructor ps r => .new :: signature (parameters ps) (lexemes r)

def lexemesAll : List TypeTree → List (List Lexeme)
  | [] => []
  | t :: ts => lexemes t :: lexemesAll ts

def operands (other : TypeKind) : List TypeTree → List (List Lexeme)
  | [] => []
  | t :: ts => t.asOperand other (lexemes t) :: operands other ts

def parameters : List (ParameterOf TypeTree) → List (List Lexeme)
  | [] => []
  | ⟨name, rest, optional, type⟩ :: ps =>
    (ParameterOf.mk name rest optional (lexemes type)).lexemes :: parameters ps

def generics : List (GenericOf TypeTree) → List (List Lexeme)
  | [] => []
  | ⟨name, constraint, default⟩ :: gs =>
    (GenericOf.mk name (lexemesOption constraint) (lexemesOption default)).lexemes :: generics gs

def lexemesOption : Option TypeTree → Option (List Lexeme)
  | none => none
  | some t => some (lexemes t)

end

theorem lexemesAll_eq_map (ts : List TypeTree) : lexemesAll ts = ts.map lexemes := by
  induction ts with
  | nil => rfl
  | cons t ts ih => rw [lexemesAll, ih, List.map_cons]

theorem operands_eq_map (other : TypeKind) (ts : List TypeTree) :
    operands other ts = ts.map fun t => t.asOperand other t.lexemes := by
  induction ts with
  | nil => rfl
  | cons t ts ih => rw [operands, ih, List.map_cons]

theorem parameters_eq_map (ps : List (ParameterOf TypeTree)) :
    parameters ps = ps.map fun p => (p.map lexemes).lexemes := by
  induction ps with
  | nil => rfl
  | cons p ps ih => rw [parameters, ih, List.map_cons, ParameterOf.map]

theorem lexemesOption_eq_map (o : Option TypeTree) : lexemesOption o = o.map lexemes := by
  cases o <;> rfl

theorem generics_eq_map (gs : List (GenericOf TypeTree)) :
    generics gs = gs.map fun g => (g.map lexemes).lexemes := by
  induction gs with
  | nil => rfl
  | cons g gs ih =>
    rw [generics, ih, List.map_cons, GenericOf.map, lexemesOption_eq_map, lexemesOption_eq_map]

/-! ## 4. Legible trees -/

/-- **Nothing lacks parentheses.**  Where a part is written without them, it is of a kind that holds
    together there; names are identifiers, and unions and intersections have two operands or more. -/
inductive Legible : TypeTree → Prop
  | native {name : String} : IsName name → Legible (.native name)
  | array {e : TypeTree} : Legible e → e.kind ≠ .keyOf → e.kind ≠ .constructorSignature →
      Legible (.array e)
  | tuple {es : List TypeTree} : (∀ e ∈ es, Legible e) → Legible (.tuple es)
  | keyOf {t : TypeTree} : Legible t → t.kind ≠ .constructorSignature → Legible (.keyOf t)
  | indexedAccess {t k : TypeTree} : Legible t → t.kind ≠ .keyOf →
      t.kind ≠ .constructorSignature → Legible k → Legible (.indexedAccess t k)
  | union {ts : List TypeTree} : 2 ≤ ts.length → (∀ t ∈ ts, Legible t) →
      (∀ t ∈ ts, t.kind ≠ .conditional) → Legible (.union ts)
  | intersection {ts : List TypeTree} : 2 ≤ ts.length → (∀ t ∈ ts, Legible t) →
      (∀ t ∈ ts, t.kind ≠ .conditional) → Legible (.intersection ts)
  | conditional {c e y n : TypeTree} : Legible c → c.kind ≠ .conditional →
      c.kind ≠ .functionSignature → c.kind ≠ .constructorSignature → Legible e → Legible y →
      Legible n → Legible (.conditional c e y n)
  | function {gs : List (GenericOf TypeTree)} {ps : List (ParameterOf TypeTree)} {r : TypeTree} :
      (∀ g ∈ gs, IsName g.name) → (∀ g ∈ gs, ∀ t ∈ g.constraint, Legible t) →
      (∀ g ∈ gs, ∀ t ∈ g.default, Legible t) → (∀ p ∈ ps, IsName p.name) →
      (∀ p ∈ ps, Legible p.type) → Legible r → Legible (.function gs ps r)
  | constructor {ps : List (ParameterOf TypeTree)} {r : TypeTree} : (∀ p ∈ ps, IsName p.name) →
      (∀ p ∈ ps, Legible p.type) → Legible r → Legible (.constructor ps r)

end TypeTree

/-! ## 5. Neighbours -/

/-- **What can follow a type**: nothing, or a plain mark. -/
def CanFollow (ls : List Lexeme) : Prop := Glued ls ∧ ∀ l ∈ ls.head?, l.isPlain

/-- **Can stand before whatever can follow a type.** -/
def Holds (ls : List Lexeme) : Prop := ∀ k, CanFollow k → Glued (ls ++ k)

theorem Lexeme.Glued.plain {l : Lexeme} {ls : List Lexeme} (hl : l.isPlain) (h : Glued ls) :
    Glued (l :: ls) := by
  cases l <;> first
    | exact ⟨trivial, h⟩
    | cases hl

theorem Lexeme.Glued.canFollow {l : Lexeme} {ls : List Lexeme} (hl : l.isPlain) (h : Glued ls) :
    CanFollow (l :: ls) :=
  ⟨h.plain hl, fun _ he => by cases he; exact hl⟩

namespace Holds

variable {ls ls' : List Lexeme}

theorem nil : Holds [] := fun _ h => h.1

theorem plain {l : Lexeme} (hl : l.isPlain) (h : Holds ls) : Holds (l :: ls) :=
  fun k hk => (h k hk).plain hl

/-- A plain mark and what stands after it. -/
theorem append {l : Lexeme} (h : Holds ls) (hl : l.isPlain) (h' : Holds ls') :
    Holds (ls ++ l :: ls') := by
  intro k hk
  rw [List.append_assoc]
  exact h _ ((h' k hk).canFollow hl)

theorem word {name : String} (hname : IsName name) (h : Holds ls)
    (hplain : ∀ l ∈ ls.head?, l.isPlain) : Holds (.word name :: ls) := by
  intro k hk
  refine ⟨⟨hname, ?_⟩, h k hk⟩
  cases ls with
  | nil => exact hk.2
  | cons l ls => exact hplain

theorem enclosed (h : Holds ls) : Holds (enclosed ls) := (h.append rfl .nil).plain rfl

theorem joined {separator : Lexeme} (hseparator : separator.isPlain) {es : List (List Lexeme)}
    (h : ∀ e ∈ es, Holds e) : Holds (joined separator es) := by
  induction es with
  | nil => exact .nil
  | cons e es ih =>
    have hfirst := h e List.mem_cons_self
    by_cases hes : es = []
    · rwa [hes, joined_singleton]
    · rw [joined_cons _ _ hes]
      exact hfirst.append hseparator (ih fun x hx => h x (List.mem_cons_of_mem e hx))

theorem parameter {p : ParameterOf (List Lexeme)} (hname : IsName p.name) (h : Holds p.type) :
    Holds p.lexemes := by
  have hcolon : Holds (.colon :: p.type) := h.plain rfl
  have hword : Holds (.word p.name ::
      ((if p.optional then [.mayMiss] else []) ++ .colon :: p.type)) := by
    cases p.optional with
    | false => exact hcolon.word hname fun _ he => by cases he; rfl
    | true => exact (hcolon.plain rfl).word hname fun _ he => by cases he; rfl
  unfold ParameterOf.lexemes
  cases p.rest with
  | false => exact hword
  | true => exact hword.plain rfl

theorem generic {g : GenericOf (List Lexeme)} (hname : IsName g.name)
    (hconstraint : ∀ ls ∈ g.constraint, Holds ls) (hdefault : ∀ ls ∈ g.default, Holds ls) :
    Holds g.lexemes := by
  unfold GenericOf.lexemes
  cases hc : g.constraint with
  | none =>
    cases hd : g.default with
    | none => exact Holds.nil.word hname fun _ he => by cases he
    | some d => exact ((hdefault d hd).plain rfl).word hname fun _ he => by cases he; rfl
  | some c =>
    refine Holds.word hname ?_ fun _ he => by cases he; rfl
    refine .plain rfl ?_
    cases hd : g.default with
    | none => simpa [after] using hconstraint c hc
    | some d => exact (hconstraint c hc).append rfl (hdefault d hd)

theorem signature {ps : List (List Lexeme)} (h : ∀ p ∈ ps, Holds p) (h' : Holds ls) :
    Holds (signature ps ls) := by
  have hlist : Holds (parameterList ps) := ((Holds.joined rfl h).append rfl .nil).plain rfl
  exact hlist.append rfl h'

theorem function {gs ps : List (List Lexeme)} (hg : ∀ g ∈ gs, Holds g) (hp : ∀ p ∈ ps, Holds p)
    (h : Holds ls) : Holds (genericList gs ++ ApiReference.signature ps ls) := by
  cases gs with
  | nil => exact .signature hp h
  | cons g gs =>
    have hlist : Holds (.leftAngle :: (ApiReference.joined .comma (g :: gs) ++
        .rightAngle :: ApiReference.signature ps ls)) :=
      ((Holds.joined rfl hg).append rfl (signature hp h)).plain rfl
    simpa [genericList] using hlist

end Holds

/-- The first of them can begin a type. -/
def Begins (ls : List Lexeme) : Prop := ∃ l ∈ ls.head?, l.isStart

theorem Begins.append {ls : List Lexeme} (h : Begins ls) (k : List Lexeme) : Begins (ls ++ k) := by
  cases ls with
  | nil =>
    obtain ⟨l, hl, -⟩ := h
    cases hl
  | cons l ls => exact h

theorem Begins.cons {l : Lexeme} (hl : l.isStart) (ls : List Lexeme) : Begins (l :: ls) := ⟨l, rfl, hl⟩

theorem Begins.length_pos {ls : List Lexeme} (h : Begins ls) : 0 < ls.length := by
  cases ls with
  | nil =>
    obtain ⟨l, hl, -⟩ := h
    cases hl
  | cons l ls => exact Nat.succ_pos _

theorem Begins.joined {e : List Lexeme} (h : Begins e) (separator : Lexeme) (es : List (List Lexeme)) :
    Begins (joined separator (e :: es)) := by
  by_cases hes : es = []
  · rwa [hes, joined_singleton]
  · rw [joined_cons _ _ hes]
    exact h.append _

namespace TypeTree

variable {t : TypeTree} {ls : List Lexeme}

theorem holds_asPart (h : Holds ls) : Holds (t.asPart ls) := by
  unfold asPart
  split
  · exact h.enclosed
  · exact h

theorem holds_asOperand {other : TypeKind} (h : Holds ls) : Holds (t.asOperand other ls) := by
  unfold asOperand
  split
  · exact h.enclosed
  · exact h

theorem begins_asPart (h : Begins ls) : Begins (t.asPart ls) := by
  unfold asPart
  split
  · exact .cons rfl _
  · exact h

theorem begins_asOperand {other : TypeKind} (h : Begins ls) : Begins (t.asOperand other ls) := by
  unfold asOperand
  split
  · exact .cons rfl _
  · exact h

theorem Legible.begins (h : t.Legible) : Begins t.lexemes := by
  have hoperands : ∀ {ts : List TypeTree} (separator : Lexeme) (other : TypeKind), 2 ≤ ts.length →
      (∀ t ∈ ts, Begins t.lexemes) → Begins (joined separator (operands other ts)) := by
    intro ts separator other hlength hts
    cases ts with
    | nil => cases hlength
    | cons t ts =>
      rw [operands]
      exact (begins_asOperand (hts t List.mem_cons_self)).joined separator _
  induction h with
  | native _ => exact .cons rfl _
  | array _ _ _ ih => exact (begins_asPart ih).append _
  | tuple _ _ => exact .cons rfl _
  | keyOf _ _ _ => exact .cons rfl _
  | indexedAccess _ _ _ _ ih _ => exact (begins_asPart ih).append _
  | union hlength _ _ ih => exact hoperands .bar .intersection hlength ih
  | intersection hlength _ _ ih => exact hoperands .ampersand .union hlength ih
  | conditional _ _ _ _ _ _ _ ih _ _ _ => exact ih.append _
  | @function gs _ _ _ _ _ _ _ _ _ _ _ _ =>
    rw [lexemes]
    cases generics gs with
    | nil => exact .cons rfl _
    | cons g gs => exact .cons rfl _
  | constructor _ _ _ _ _ => exact .cons rfl _

theorem Legible.holds (h : t.Legible) : Holds t.lexemes := by
  -- operands and parameters hold as their types do
  have hoperands : ∀ {ts : List TypeTree} (separator : Lexeme) (other : TypeKind),
      separator.isPlain → (∀ t ∈ ts, Holds t.lexemes) → Holds (joined separator (operands other ts)) := by
    intro ts separator other hseparator hts
    rw [operands_eq_map]
    exact .joined hseparator (List.forall_mem_map.2 fun t ht => holds_asOperand (hts t ht))
  have hparameters : ∀ {ps : List (ParameterOf TypeTree)}, (∀ p ∈ ps, IsName p.name) →
      (∀ p ∈ ps, Holds p.type.lexemes) → ∀ p ∈ parameters ps, Holds p := by
    intro ps hname hps
    rw [parameters_eq_map]
    exact List.forall_mem_map.2 fun p hp => .parameter (hname p hp) (hps p hp)
  induction h with
  | native hname => exact .word hname .nil fun _ he => by cases he
  | array _ _ _ ih => exact (holds_asPart ih).append rfl (Holds.nil.plain rfl)
  | tuple _ ih =>
    rw [lexemes, lexemesAll_eq_map]
    exact ((Holds.joined rfl (List.forall_mem_map.2 ih)).append rfl .nil).plain rfl
  | keyOf ht _ ih =>
    intro k hk
    exact ⟨(begins_asPart ht.begins).append k, holds_asPart ih k hk⟩
  | indexedAccess _ _ _ _ iht ihk => exact (holds_asPart iht).append rfl (ihk.append rfl .nil)
  | union _ _ _ ih => exact hoperands .bar .intersection rfl ih
  | intersection _ _ _ ih => exact hoperands .ampersand .union rfl ih
  | conditional _ _ _ _ _ _ _ ihc ihe ihy ihn =>
    exact ihc.append rfl (ihe.append rfl (ihy.append rfl ihn))
  | function hgname _ _ hname _ _ ihc ihd ihp ihr =>
    rw [lexemes, generics_eq_map]
    refine .function (List.forall_mem_map.2 fun g hg => .generic (hgname g hg) ?_ ?_)
      (hparameters hname ihp) ihr
    · intro ls hls
      obtain ⟨t, ht, rfl⟩ := Option.map_eq_some_iff.1 hls
      exact ihc g hg t ht
    · intro ls hls
      obtain ⟨t, ht, rfl⟩ := Option.map_eq_some_iff.1 hls
      exact ihd g hg t ht
  | constructor hname _ _ ihp ihr =>
    intro k hk
    exact ⟨rfl, Holds.signature (hparameters hname ihp) ihr k hk⟩

/-- **The words and marks of a legible tree can be told apart.** -/
theorem Legible.glued (h : t.Legible) : Glued t.lexemes := by
  have hend := h.holds [] ⟨trivial, fun _ he => by cases he⟩
  rwa [List.append_nil] at hend

/-- The kinds that are written with three words or marks at least. -/
def longKinds : List TypeKind :=
  [.union, .intersection, .conditional, .functionSignature, .constructorSignature]

/-- **Compound trees are not written as one word.** -/
theorem Legible.three_le_length (h : t.Legible) (hkind : t.kind ∈ longKinds) :
    3 ≤ t.lexemes.length := by
  have hoperands : ∀ {ts : List TypeTree} (separator : Lexeme) (other : TypeKind), 2 ≤ ts.length →
      (∀ t ∈ ts, t.Legible) → 3 ≤ (joined separator (operands other ts)).length := by
    intro ts separator other hlength hts
    rcases ts with _ | ⟨t, _ | ⟨u, us⟩⟩
    · cases hlength
    · exact absurd hlength (Nat.lt_irrefl 1)
    -- each of two operands has a lexeme, and a separator stands between them
    · rw [List.forall_mem_cons, List.forall_mem_cons] at hts
      have hfirst : 0 < (t.asOperand other t.lexemes).length :=
        (begins_asOperand hts.1.begins).length_pos
      have hrest : 0 < (joined separator (operands other (u :: us))).length :=
        ((begins_asOperand hts.2.1.begins).joined separator _).length_pos
      have hne : operands other (u :: us) ≠ [] := List.cons_ne_nil _ _
      rw [operands, joined_cons _ _ hne, List.length_append, List.length_cons]
      omega
  cases h with
  | union hlength hts _ => exact hoperands .bar .intersection hlength hts
  | intersection hlength hts _ => exact hoperands .ampersand .union hlength hts
  | conditional hc _ _ _ _ _ _ =>
    rw [lexemes]
    simp only [List.length_append, List.length_cons]
    omega
  | function =>
    rw [lexemes]
    simp only [signature, parameterList, List.length_append, List.length_cons]
    omega
  | constructor =>
    rw [lexemes]
    simp only [signature, parameterList, List.length_append, List.length_cons]
    omega
  | _ => simp [kind, longKinds] at hkind

end TypeTree

end ApiReference
