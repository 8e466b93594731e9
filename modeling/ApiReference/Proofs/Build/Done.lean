/-
  What holds of a record once it is filled.

  A type record shows the shape of its type, with the registered records of the symbols and types that
  stand in it, or it shows what another record did.  A member is linked to the first member it may
  override that is not private, and has its own documentation before what it takes over.

  A container lists the records of its exports in display order, and their places are still the same
  later.  A function that is assigned as a value has the signature of its type.

  A later store keeps this.  What is filled is not written any more, and the standing of a member is
  settled before anyone can ask for it; only what is copied onto changes with its source.

  1. `IsType`, `IsPart`, `Shows`      -- type records;
  2. `Linked`, `Documented`           -- members;
  3. `Listing`, `Displays`            -- classes and interfaces, other containers;
  4. `Done`                           -- what holds of a record after those filled before it;
  5. `Upholds`                        -- what a later store keeps, and that it keeps all of this.
-/
import ApiReference.Proofs.Build.Changes
import ApiReference.Proofs.Facts.Statics
import ApiReference.Proofs.Facts.Shape
import ApiReference.Proofs.Facts.Sides

namespace ApiReference

/-! ## 1. Type records -/

/-- A type record without what is worked out on first use. -/
def TypeExpr.built (t : TypeExpr) : TypeExpr := { t with expanded := none, resolved := none }

/-- Records that are the same without it differ in that only. -/
theorem TypeExpr.eq_of_built {e e' : TypeExpr} (he : e'.built = e.built) :
    e' = { e with expanded := e'.expanded, resolved := e'.resolved } := by
  cases e
  cases e'
  simpa [TypeExpr.built] using he

/-- **What a type record may have worked out on first use**: its expansion, or its branches. -/
inductive Memo where
  | expansion (e : TypeHandle)
  | branches (pair : Option TypeHandle × Option TypeHandle)

/-- The type record has worked it out. -/
def TypeExpr.Knows (t : TypeExpr) : Memo → Prop
  | .expansion e => t.expanded = some e
  | .branches pair => t.resolved = some pair

namespace Facts

variable (f : Facts)

/-- The parameter of a symbol, given the record of its type. -/
def parameterOf (s : SymbolId) (type : TypeHandle) : Parameter :=
  let d := ((f.valueDeclaration s).map f.declaration).getD {}
  let initializer := d.initializer.toOption
  { name := f.symbolName s
    type := some type
    summary := Build.nonEmpty (f.symbol s).comment.text
    rest := d.rest
    optional := d.question || initializer.isSome
    defaultValue := initializer
    raw := some s }

/-- A type parameter, given the records of its constraint and its default. -/
def typeParameterOf (t : TypeId) (constraint default : Option TypeHandle) : TypeParameter :=
  let facts := f.type (.known t)
  { name := match facts.symbol with
      | some s => (f.symbol s).name
      | none => f.typeText (.known t)
    summary := facts.symbol.bind (fun s => Build.nonEmpty (f.symbol s).comment.text)
    constraint, default
    raw := some (.known t) }

end Facts

namespace Store

variable (s : Store)

/-- The record registered for a symbol. -/
def IsMember (k : Option SymbolId) (h : MemberHandle) : Prop := s.members.find? k = some h.index

/-- The record registered for a type. -/
def IsType (k : Option TypeRef) (h : TypeHandle) : Prop := s.types.find? k = some h.index

variable {s} in
/-- A symbol has one record. -/
theorem IsMember.unique {k : Option SymbolId} {h h' : MemberHandle} (hk : s.IsMember k h)
    (hk' : s.IsMember k h') : h = h' :=
  congrArg MemberHandle.mk (Option.some.inj (hk.symm.trans hk'))

variable {s} in
/-- A type has one record. -/
theorem IsType.unique {k : Option TypeRef} {h h' : TypeHandle} (hk : s.IsType k h)
    (hk' : s.IsType k h') : h = h' :=
  congrArg TypeHandle.mk (Option.some.inj (hk.symm.trans hk'))

/-- The registered records of several symbols, in order. -/
def IsMembers : List (Option SymbolId) → List (Option MemberHandle) → Prop :=
  List.Forall₂ fun k o => ∃ h, o = some h ∧ s.IsMember k h

/-- The registered records of several types, in order. -/
def IsTypes : List (Option TypeRef) → List (Option TypeHandle) → Prop :=
  List.Forall₂ fun k o => ∃ h, o = some h ∧ s.IsType k h

/-- **A filled type record that is registered for no type**, and what it shows. -/
structure IsLoose (h : TypeHandle) (content : TypeExpr) : Prop where
  inside : s.HasType h
  key : s.types.keyAt h.index = none
  filled : .type h ∈ s.filled
  content : (s.type h).built = content

/-- **The record of a part**: the registered one of a type, or a record of its own. -/
def IsPart : Part → TypeHandle → Prop
  | .of t, h => s.IsType t h
  | .missing, h => s.IsLoose h { kind := .error }
  | .aliasOf t a, h => ∃ m, s.IsMember (some a) m ∧ s.IsLoose h
      { kind := .aliasRef, raw := some t, member := some m, expansion := some (.ofType t) }

def IsPiece : Piece → Span → Prop
  | .text a, .text b => a = b
  | .type t, .type (some h) => s.IsType t h
  | _, _ => False

def IsParameter (f : Facts) (o : Option SymbolId) (p : Parameter) : Prop :=
  ∃ a h, o = some a ∧ s.IsType (some (f.typeOfSymbol a)) h ∧ p = f.parameterOf a h

def IsTypeParameter (f : Facts) (o : Option TypeId) (p : TypeParameter) : Prop :=
  ∃ t constraint default, o = some t ∧
    Option.Rel (fun u => s.IsType (some (.known u))) (f.type (.known t)).constraint constraint ∧
    Option.Rel (fun u => s.IsType (some (.known u))) (f.type (.known t)).default default ∧
    p = f.typeParameterOf t constraint default

/-- **A type record that shows a shape**: the same kind, names and values, and in each place the
    record of what stands there.  What is worked out on first use may be there or not. -/
structure Shows (f : Facts) (t : TypeRef) (shape : TypeShape) (e : TypeExpr) : Prop where
  kind : e.kind = shape.kind
  raw : e.raw = some t
  name : e.name = shape.name := by rfl
  value : e.value = shape.value := by rfl
  member : Option.Rel (fun a => s.IsMember (some a)) shape.member e.member := by exact .none
  spans : Option.Rel (List.Forall₂ s.IsPiece) shape.pieces e.spans := by exact .none
  target : Option.Rel s.IsPart shape.target e.target := by exact .none
  typeArguments : Option.Rel s.IsTypes shape.typeArguments e.typeArguments := by exact .none
  element : Option.Rel s.IsType shape.element e.element := by exact .none
  elements : Option.Rel s.IsTypes shape.elements e.elements := by exact .none
  key : Option.Rel s.IsPart shape.key e.key := by exact .none
  operands : Option.Rel s.IsTypes shape.operands e.operands := by exact .none
  signature : e.signature = shape.signature := by rfl
  typeParameters : Option.Rel (List.Forall₂ (s.IsTypeParameter f)) shape.typeParameters
    e.typeParameters := by exact .none
  parameters : Option.Rel (List.Forall₂ (s.IsParameter f)) shape.parameters e.parameters := by
    exact .none
  returnType : Option.Rel s.IsType shape.returnType e.returnType := by exact .none
  members : Option.Rel s.IsMembers shape.members e.members := by exact .none
  checkType : Option.Rel s.IsPart shape.checkType e.checkType := by exact .none
  extendsType : Option.Rel s.IsPart shape.extendsType e.extendsType := by exact .none
  expansion : e.expansion = shape.expansion := by rfl
  branches : e.branches = shape.branches := by rfl

/-- **A record that shows what another shows**: taking it over once more changes nothing. -/
def Agrees (h source : TypeHandle) : Prop :=
  (s.type h).built = ((s.type h).takeOver (s.type source)).built

/-! ## 2. Members -/

/-- A member that nothing was copied onto. -/
def Original (h : MemberHandle) : Prop := ∀ p ∈ s.copies, p.target ≠ h

instance (h : MemberHandle) : Decidable (s.Original h) :=
  inferInstanceAs (Decidable (∀ p ∈ s.copies, p.target ≠ h))

variable {s} in
/-- Where there are no copies, every member is an original. -/
theorem Original.of_nil {h : MemberHandle} (hs : s.copies = []) : s.Original h := by
  intro p hp
  rw [hs] at hp
  exact absurd hp List.not_mem_nil

/-- None of the symbols is documented by a copy. -/
def Originals (symbols : List SymbolId) : Prop :=
  ∀ a ∈ symbols, ∀ h, s.IsMember (some a) h → s.Original h

/-- **The link of an overriding member**: the record of the first symbol that is not private, with all
    records met on the way among the first `n`. -/
def Linked (n : Nat) : List SymbolId → Option MemberHandle → Prop
  | [], o => o = none
  | a :: rest, o => ∃ h, s.IsMember (some a) h ∧ h.index < n ∧
      if (s.member h).has .private_ then Linked n rest o else o = some h

/-- The documentation that a member takes over from the registered one it overrides, if that was
    filled before it. -/
def Inherits (filled : List RecordHandle) (take : Docs → Docs) (link : Option MemberHandle)
    (docs : Docs) : Prop :=
  match link with
  | none => docs = {}
  | some l => (∃ a, s.IsMember (some a) l) ∧
      (.member l ∈ filled → s.Original l → docs = take (s.member l).docs)

/-- The documentation that a member takes over from an overload: from the last one, where it lists
    them. -/
def Overloaded (filled : List RecordHandle) (m : Member) (docs : Docs) : Prop :=
  docs = {} ∨ ∃ o, .member o ∈ filled ∧ s.Original o ∧ s.members.keyAt o.index = none ∧
    (s.member o).raw = m.raw ∧ (∀ os, m.overloads = some os → os.getLast? = some (some o)) ∧
    docs = (s.member o).docs

/-- **A member that is named, linked and documented**: it has `own` of its own, then what it takes over
    from the member it overrides, then what an overload adds. -/
structure Documented (cx : Context) (n : Nat) (filled : List RecordHandle) (h : MemberHandle)
    (symbol : SymbolId) (own : Docs) (take : Docs → Docs) (overloaded : Docs) : Prop where
  raw : (s.member h).raw = some symbol
  id : (s.member h).id = cx.facts.symbolId symbol
  named : ∃ name, cx.facts.givenName symbol (s.member h).declaration = .str name
  link : s.Originals (cx.facts.overridden symbol) →
    s.Linked n (cx.facts.overridden symbol) (s.member h).overrides
  docs : ∃ inherited, (s.member h).docs = (own.backfill inherited).backfill overloaded ∧
    s.Inherits filled take (s.member h).overrides inherited
  overload : s.Overloaded filled (s.member h) overloaded

end Store

/-! ### Signatures -/

/-- **A declaration without a signature of its own**: a function that it documents is assigned as a
    value. -/
def Facts.Assigns (f : Facts) (d : DeclarationId) : Prop :=
  (f.declaration d).hasParameters = false ∨ (f.declaration d).signature = none

/-- What a function says of its signature. -/
def Member.signature (m : Member) :
    Option (List TypeParameter) × Option (List Parameter) × Option TypeHandle :=
  (m.typeParameters, m.parameters, m.returnType)

/-- **A function with the signature of its type**; where the type is no signature it gives the type
    itself. -/
def Member.Signed (m : Member) (t : TypeHandle) (e : TypeExpr) : Prop :=
  if e.kind = .functionSignature then m.signature = (e.typeParameters, e.parameters, e.returnType)
  else m.parameters = some [] ∧ m.returnType = some t

/-- It is said of the signature only. -/
theorem Member.Signed.onMember {m m' : Member} {t : TypeHandle} {e : TypeExpr}
    (hsame : m'.signature = m.signature) (h : m.Signed t e) : m'.Signed t e := by
  have hparameters : m'.parameters = m.parameters := congrArg (fun x => x.2.1) hsame
  have hreturn : m'.returnType = m.returnType := congrArg (fun x => x.2.2) hsame
  unfold Signed
  rw [hsame, hparameters, hreturn]
  exact h

/-- What is worked out on first use has no part in it. -/
theorem Member.Signed.congr {m : Member} {t : TypeHandle} {e e' : TypeExpr} (he : e'.built = e.built)
    (h : m.Signed t e) : m.Signed t e' := by
  rw [TypeExpr.eq_of_built he]
  exact h

/-- **A function that is assigned as a value** has the signature of the record of its type, if that is
    one of those filled. -/
def Store.SignedByType (s : Store) (f : Facts) (filled : List RecordHandle) (h : MemberHandle)
    (symbol : SymbolId) : Prop :=
  (s.member h).kind.isFunction = true → ∀ d, (s.member h).declaration = some d → f.Assigns d →
    ∃ t, s.IsType (some (f.typeOfSymbol symbol)) t ∧
      (.type t ∈ filled → (s.member h).Signed t (s.type t))

/-- Of other members this says nothing. -/
theorem Store.SignedByType.of_not_isFunction {s : Store} {f : Facts} {filled : List RecordHandle}
    {h : MemberHandle} {symbol : SymbolId} (hkind : (s.member h).kind.isFunction = false) :
    s.SignedByType f filled h symbol :=
  fun hfunction => absurd (hkind.symm.trans hfunction) Bool.false_ne_true

/-! ## 3. Lists of members -/

/-- Kinds whose members are the exports of their symbol, in display order if asked. -/
def MemberKind.isContainer : MemberKind → Bool
  | .namespace_ | .module => true
  | _ => false

/-- Kinds of which it is told what their members list. -/
def MemberKind.isListing (kind : MemberKind) : Bool := kind.isInheriting || kind.isContainer

theorem MemberKind.isPlain_of_isContainer {kind : MemberKind} (h : kind.isContainer = true) :
    kind.isPlain = true ∧ kind.isInheriting = false := by
  cases kind <;> first | exact ⟨rfl, rfl⟩ | cases h

/-- A member lists another. -/
def Member.Lists (m : Member) (v : MemberHandle) : Prop := some v ∈ m.members.getD []

/-- **The two sides of a class.** -/
inductive Side where
  | instance_
  | static_
deriving DecidableEq, Repr

/-- What a view shows on its own: a view of an instance member the member it stands for, that of a
    static member the class that lists it. -/
def Side.adjust (side : Side) (owner child : MemberHandle) (id : String) : Adjust :=
  match side with
  | .instance_ => .asInherited child id
  | .static_ => .asStatic owner id

namespace Store

variable (s : Store)

/-- **Nobody lists a member**; copies apart, which show what their source does. -/
def Unlisted (v : MemberHandle) : Prop := ∀ x, s.Original x → ¬ (s.member x).Lists v

/-- **A view of a symbol's member**, as the class of another symbol lists it. -/
structure IsView (f : Facts) (side : Side) (owner : MemberHandle) (symbol p : SymbolId)
    (v : MemberHandle) : Prop where
  inside : s.HasMember v
  key : s.members.keyAt v.index = none
  copied : ∃ child, s.IsMember (some p) child ∧
    ⟨child, v, side.adjust owner child (f.symbolId symbol ++ "." ++ (f.symbol p).escapedName)⟩ ∈ s.copies

/-- **What a class lists for a symbol**: the member of that symbol if the class declares it, else a
    view. -/
def IsEntry (f : Facts) (side : Side) (owner : MemberHandle) (symbol p : SymbolId)
    (v : MemberHandle) : Prop :=
  if f.parentOf p = some symbol then s.IsMember (some p) v else s.IsView f side owner symbol p v

/-- The members without a key among several. -/
def views (vs : List MemberHandle) : List MemberHandle :=
  vs.filter fun v => (s.members.keyAt v.index).isNone

/-- **The instance side of a class**: its entries, in some order. -/
def OnInstance (cx : Context) (h : MemberHandle) (symbol : SymbolId) (shown : List MemberHandle) : Prop :=
  ∃ ps entries, cx.instanceSymbols symbol = .ok ps ∧
    List.Forall₂ (s.IsEntry cx.facts .instance_ h symbol) ps entries ∧ shown.Perm entries

/-- **The static side**: its entries, in order. -/
def OnStatic (cx : Context) (h : MemberHandle) (symbol : SymbolId) (statics : List MemberHandle) : Prop :=
  ∃ ps, cx.staticSymbols symbol = .ok ps ∧
    List.Forall₂ (s.IsEntry cx.facts .static_ h symbol) ps statics

/-- **What a class lists**: one side after the other, and for no two entries the same view. -/
structure Listing (cx : Context) (h : MemberHandle) (symbol : SymbolId)
    (shown statics : List MemberHandle) : Prop where
  members : (s.member h).members = some ((shown ++ statics).map some)
  onInstance : s.OnInstance cx h symbol shown
  onStatic : s.OnStatic cx h symbol statics
  views : (s.views (shown ++ statics)).Nodup

/-- **What a container displays of its exports**: their registered records, sorted for display as far
    as no copies are concerned, or as they are exported. -/
structure Displays (sorted : Bool) (exports : List (Option SymbolId))
    (entries shown : List MemberHandle) : Prop where
  registered : List.Forall₂ s.IsMember exports entries
  perm : shown.Perm entries
  order : if sorted then InOrder (fun a => decide (s.Original a)) (fun a => (s.member a).sortKey)
    entries shown else shown = entries

/-- **A filled member**: it is linked and documented, a class or interface lists its members, a container
    displays its exports, and a function that is assigned as a value has the signature of its type. -/
structure Completed (cx : Context) (n : Nat) (filled : List RecordHandle) (h : MemberHandle)
    (symbol : SymbolId) (overloaded : Docs) : Prop
    extends s.Documented cx n filled h symbol (cx.facts.ownDocs (s.member h))
      (s.member h).kind.inherits overloaded where
  listing : (s.member h).kind.isInheriting = true →
    ∃ shown statics, s.Listing cx h symbol shown statics
  exports : (s.member h).kind.isContainer = true → ∃ entries shown,
    (s.member h).members = some (shown.map some) ∧
      s.Displays cx.settings.sort (cx.facts.symbol symbol).exports entries shown
  signed : s.SignedByType cx.facts filled h symbol

/-- **What holds of a filled member** that is no copy. -/
def MemberDone (cx : Context) (n : Nat) (filled : List RecordHandle) (h : MemberHandle)
    (symbol : SymbolId) : Prop :=
  ∃ overloaded, s.Completed cx n filled h symbol overloaded

/-! ## 4. Filled records -/

/-- **A record of a type**: it shows the shape of the type, or what the record that it takes over shows,
    if that is one of those filled. -/
def TypeMade (cx : Context) (filled : List RecordHandle) (h : TypeHandle) (t : TypeRef) : Prop :=
  (s.type h).raw = some t ∧ match cx.facts.takenFrom t with
    | none => ∃ shape, cx.shape t = .ok shape ∧ s.Shows cx.facts t shape (s.type h)
    | some u => ∃ source, s.IsType (some u) source ∧ (.type source ∈ filled → s.Agrees h source)

/-- **What holds of a filled type record**: if it is registered, then for a type that it is the record
    of. -/
def TypeDone (cx : Context) (filled : List RecordHandle) (h : TypeHandle) : Prop :=
  ∀ k, s.types.keyAt h.index = some k → ∃ t, k = some t ∧ s.TypeMade cx filled h t

/-- **What holds of a filled unit record**: it displays the exports of the root of its unit. -/
def UnitDone (cx : Context) (h : UnitHandle) : Prop :=
  ∃ position unit root entries, s.units.keyAt h.index = some position ∧
    cx.facts.units[position]? = some unit ∧ unit.symbol = some root ∧
    s.Displays cx.settings.sort (cx.facts.symbol root).exports entries (s.unit h).members

/-- **What holds of a record after those in `filled`.** -/
def Done (cx : Context) (n : Nat) (filled : List RecordHandle) : RecordHandle → Prop
  | .member h => s.Original h → ∃ symbol, s.MemberDone cx n filled h symbol
  | .type h => s.TypeDone cx filled h
  | .unit h => s.UnitDone cx h

/-! ## 5. Later stores -/

/-- A record without a key in a later store had none before. -/
theorem Grows.keyAt_eq_none {s s' : Store} (h : s.Grows s') {i : Nat}
    (hnone : s'.members.keyAt i = none) : s.members.keyAt i = none := by
  by_cases hi : i < s.members.size
  · exact (h.members.keyAt i hi).symm.trans hnone
  · exact Registry.keyAt_of_size_le (Nat.not_lt.1 hi)

/-- **What a later store keeps of filled records.**  Of the first `n` members also their standing. -/
structure Upholds (n : Nat) (s s' : Store) : Prop where
  grows : s.Grows s'
  filled : s.filled <:+ s'.filled
  copies : ∀ p ∈ s.copies, p ∈ s'.copies
  original : ∀ h, .member h ∈ s.filled → s.Original h → s'.Original h
  type : ∀ h, .type h ∈ s.filled → (s'.type h).built = (s.type h).built
  member : ∀ h, .member h ∈ s.filled → s.Original h → s'.member h = s.member h
  unit : ∀ h, .unit h ∈ s.filled → s'.unit h = s.unit h
  standing : ∀ h, h.index < n → s.members.keyAt h.index ≠ none → s'.Original h →
    (s'.member h).standing = (s.member h).standing

/-- A record that was not written, but for what is worked out on first use. -/
def Unwritten (s s' : Store) : RecordHandle → Prop
  | .member h => s.Original h → s'.member h = s.member h
  | .type h => (s'.type h).built = (s.type h).built
  | .unit h => s'.unit h = s.unit h

end Store

theorem forall₂_right {α β : Type} {R : α → β → Prop} {P : β → Prop} (h : ∀ a b, R a b → P b)
    {xs : List α} {ys : List β} (hxy : List.Forall₂ R xs ys) : ∀ y ∈ ys, P y := by
  induction hxy with
  | nil => exact fun y hy => absurd hy List.not_mem_nil
  | cons hab _ ih =>
    intro y hy
    rcases List.mem_cons.1 hy with rfl | hy
    · exact h _ _ hab
    · exact ih y hy

theorem rel_imp {α β : Type} {R R' : α → β → Prop} (h : ∀ a b, R a b → R' a b) {o : Option α}
    {o' : Option β} (ho : Option.Rel R o o') : Option.Rel R' o o' := by
  cases ho with
  | none => exact .none
  | some hab => exact .some (h _ _ hab)

namespace Store.Upholds

variable {n n' : Nat} {s s' : Store} {cx : Context}

theorem isMember (hu : Upholds n s s') {k : Option SymbolId} {h : MemberHandle}
    (hh : s.IsMember k h) : s'.IsMember k h := hu.grows.members.find? _ _ hh

theorem isType (hu : Upholds n s s') {k : Option TypeRef} {h : TypeHandle} (hh : s.IsType k h) :
    s'.IsType k h := hu.grows.types.find? _ _ hh

theorem mem_filled (hu : Upholds n s s') {x : RecordHandle} (hx : x ∈ s.filled) : x ∈ s'.filled :=
  hu.filled.subset hx

theorem original_of (hu : Upholds n s s') {h : MemberHandle} (hh : s'.Original h) : s.Original h :=
  fun p hp => hh p (hu.copies p hp)

theorem originals_of (hu : Upholds n s s') {symbols : List SymbolId} (hh : s'.Originals symbols) :
    s.Originals symbols :=
  fun a ha h hmember => hu.original_of (hh a ha h (hu.isMember hmember))

theorem isLoose (hu : Upholds n s s') {h : TypeHandle} {content : TypeExpr}
    (hh : s.IsLoose h content) : s'.IsLoose h content where
  inside := hh.inside.mono hu.grows.extends
  key := (hu.grows.types.keyAt _ hh.inside).trans hh.key
  filled := hu.mem_filled hh.filled
  content := (hu.type h hh.filled).trans hh.content

theorem isPart (hu : Upholds n s s') {p : Part} {h : TypeHandle} (hh : s.IsPart p h) :
    s'.IsPart p h := by
  cases p with
  | of t => exact hu.isType hh
  | missing => exact hu.isLoose hh
  | aliasOf t a =>
    obtain ⟨m, hm, hloose⟩ := hh
    exact ⟨m, hu.isMember hm, hu.isLoose hloose⟩

theorem isPiece (hu : Upholds n s s') {p : Piece} {x : Span} (hh : s.IsPiece p x) :
    s'.IsPiece p x := by
  match p, x, hh with
  | .text _, .text _, hh => exact hh
  | .type _, .type (some _), hh => exact hu.isType hh

theorem isMembers (hu : Upholds n s s') {ks : List (Option SymbolId)}
    {hs : List (Option MemberHandle)} (hh : s.IsMembers ks hs) : s'.IsMembers ks hs :=
  List.Forall₂.imp (fun _ _ ⟨h, ho, hm⟩ => ⟨h, ho, hu.isMember hm⟩) hh

theorem isTypes (hu : Upholds n s s') {ks : List (Option TypeRef)} {hs : List (Option TypeHandle)}
    (hh : s.IsTypes ks hs) : s'.IsTypes ks hs :=
  List.Forall₂.imp (fun _ _ ⟨h, ho, ht⟩ => ⟨h, ho, hu.isType ht⟩) hh

theorem isParameter (hu : Upholds n s s') {f : Facts} {o : Option SymbolId} {p : Parameter}
    (hh : s.IsParameter f o p) : s'.IsParameter f o p := by
  obtain ⟨a, h, ho, ht, hp⟩ := hh
  exact ⟨a, h, ho, hu.isType ht, hp⟩

theorem isTypeParameter (hu : Upholds n s s') {f : Facts} {o : Option TypeId} {p : TypeParameter}
    (hh : s.IsTypeParameter f o p) : s'.IsTypeParameter f o p := by
  obtain ⟨t, constraint, default, ho, hc, hd, hp⟩ := hh
  exact ⟨t, constraint, default, ho, rel_imp (fun _ _ => hu.isType) hc,
    rel_imp (fun _ _ => hu.isType) hd, hp⟩

theorem shows (hu : Upholds n s s') {f : Facts} {t : TypeRef} {shape : TypeShape} {e : TypeExpr}
    (h : s.Shows f t shape e) : s'.Shows f t shape e where
  kind := h.kind
  raw := h.raw
  name := h.name
  value := h.value
  member := rel_imp (fun _ _ => hu.isMember) h.member
  spans := rel_imp (fun _ _ => List.Forall₂.imp fun _ _ => hu.isPiece) h.spans
  target := rel_imp (fun _ _ => hu.isPart) h.target
  typeArguments := rel_imp (fun _ _ => hu.isTypes) h.typeArguments
  element := rel_imp (fun _ _ => hu.isType) h.element
  elements := rel_imp (fun _ _ => hu.isTypes) h.elements
  key := rel_imp (fun _ _ => hu.isPart) h.key
  operands := rel_imp (fun _ _ => hu.isTypes) h.operands
  signature := h.signature
  typeParameters := rel_imp (fun _ _ => List.Forall₂.imp fun _ _ => hu.isTypeParameter)
    h.typeParameters
  parameters := rel_imp (fun _ _ => List.Forall₂.imp fun _ _ => hu.isParameter) h.parameters
  returnType := rel_imp (fun _ _ => hu.isType) h.returnType
  members := rel_imp (fun _ _ => hu.isMembers) h.members
  checkType := rel_imp (fun _ _ => hu.isPart) h.checkType
  extendsType := rel_imp (fun _ _ => hu.isPart) h.extendsType
  expansion := h.expansion
  branches := h.branches

end Store.Upholds

/-- A record with nothing but its kind shows the shape with nothing but that kind. -/
theorem Store.Shows.blank (s : Store) (f : Facts) (t : TypeRef) (kind : TypeKind) :
    s.Shows f t { kind } { kind, raw := some t } := { kind := rfl, raw := rfl }

/-- What a record shows does not depend on what is worked out on first use. -/
theorem Store.Shows.congr {s : Store} {f : Facts} {t : TypeRef} {shape : TypeShape}
    {e e' : TypeExpr} (h : s.Shows f t shape e) (he : e'.built = e.built) :
    s.Shows f t shape e' := by
  rw [TypeExpr.eq_of_built he]
  exact { h with }

namespace Store.Upholds

variable {n n' : Nat} {s s' : Store} {cx : Context}

/-- **The link stays**, as long as no copy stands on the way. -/
theorem linked (hu : Upholds n s s') (hn : n ≤ n') {symbols : List SymbolId}
    (horiginal : s'.Originals symbols) {o : Option MemberHandle} (h : s.Linked n symbols o) :
    s'.Linked n' symbols o := by
  induction symbols with
  | nil => exact h
  | cons a rest ih =>
    obtain ⟨b, hb, hlt, hlink⟩ := h
    have hkey : s.members.keyAt b.index ≠ none := by
      rw [Registry.keyAt_of_find? hb]
      exact fun e => nomatch e
    have hb' := hu.isMember hb
    -- a candidate that is settled keeps its level, so it is passed over as it was before
    have haccess : (s'.member b).has .private_ = (s.member b).has .private_ :=
      Member.has_eq_of_standing (hu.standing b hlt hkey (horiginal a List.mem_cons_self b hb')) rfl
    refine ⟨b, hb', Nat.lt_of_lt_of_le hlt hn, ?_⟩
    rw [haccess]
    split
    · rename_i hprivate
      rw [if_pos hprivate] at hlink
      exact ih (fun x hx => horiginal x (List.mem_cons_of_mem a hx)) hlink
    · rename_i hopen
      rwa [if_neg hopen] at hlink

theorem inherits (hu : Upholds n s s') {filled : List RecordHandle} (hfilled : filled ⊆ s.filled)
    {take : Docs → Docs} {link : Option MemberHandle} {docs : Docs}
    (h : s.Inherits filled take link docs) : s'.Inherits filled take link docs := by
  cases link with
  | none => exact h
  | some l =>
    obtain ⟨⟨a, ha⟩, htaken⟩ := h
    refine ⟨⟨a, hu.isMember ha⟩, fun hl horiginal => ?_⟩
    have hs := hu.original_of horiginal
    rw [hu.member l (hfilled hl) hs]
    exact htaken hl hs

theorem overloaded (hu : Upholds n s s') (hsound : ∀ h, .member h ∈ s.filled → s.HasMember h)
    {filled : List RecordHandle} (hfilled : filled ⊆ s.filled) {m : Member} {docs : Docs}
    (h : s.Overloaded filled m docs) : s'.Overloaded filled m docs := by
  refine h.imp id ?_
  rintro ⟨o, ho, horiginal, hkey, hraw, hlast, hdocs⟩
  have hmem := hfilled ho
  have hsame := hu.member o hmem horiginal
  refine ⟨o, ho, hu.original o hmem horiginal, ?_, ?_, hlast, ?_⟩
  · exact (hu.grows.members.keyAt _ (hsound o hmem)).trans hkey
  · rw [hsame]
    exact hraw
  · rw [hsame]
    exact hdocs

theorem isView (hu : Upholds n s s') {f : Facts} {side : Side} {owner v : MemberHandle}
    {symbol p : SymbolId} (h : s.IsView f side owner symbol p v) :
    s'.IsView f side owner symbol p v where
  inside := h.inside.mono hu.grows.extends
  key := (hu.grows.members.keyAt _ h.inside).trans h.key
  copied := by
    obtain ⟨child, hchild, hcopy⟩ := h.copied
    exact ⟨child, hu.isMember hchild, hu.copies _ hcopy⟩

theorem isEntry (hu : Upholds n s s') {f : Facts} {side : Side} {owner v : MemberHandle}
    {symbol p : SymbolId} (h : s.IsEntry f side owner symbol p v) :
    s'.IsEntry f side owner symbol p v := by
  unfold IsEntry at h ⊢
  split
  · rename_i hown
    rw [if_pos hown] at h
    exact hu.isMember h
  · rename_i hforeign
    rw [if_neg hforeign] at h
    exact hu.isView h

theorem onInstance (hu : Upholds n s s') {h : MemberHandle} {symbol : SymbolId}
    {shown : List MemberHandle} (hl : s.OnInstance cx h symbol shown) :
    s'.OnInstance cx h symbol shown := by
  obtain ⟨ps, entries, hps, hentries, hperm⟩ := hl
  exact ⟨ps, entries, hps, List.Forall₂.imp (fun _ _ => hu.isEntry) hentries, hperm⟩

theorem onStatic (hu : Upholds n s s') {h : MemberHandle} {symbol : SymbolId}
    {statics : List MemberHandle} (hl : s.OnStatic cx h symbol statics) :
    s'.OnStatic cx h symbol statics := by
  obtain ⟨ps, hps, hentries⟩ := hl
  exact ⟨ps, hps, List.Forall₂.imp (fun _ _ => hu.isEntry) hentries⟩

/-- Members without a key in a later store had none before. -/
theorem views_sublist (hg : s.Grows s') (vs : List MemberHandle) : (s'.views vs).Sublist (s.views vs) := by
  refine List.monotone_filter_right vs fun v hv => ?_
  rw [Option.isNone_iff_eq_none] at hv ⊢
  exact hg.keyAt_eq_none hv

theorem listing (hu : Upholds n s s') {h : MemberHandle}
    (hsame : (s'.member h).members = (s.member h).members) {symbol : SymbolId}
    {shown statics : List MemberHandle} (hl : s.Listing cx h symbol shown statics) :
    s'.Listing cx h symbol shown statics where
  members := hsame.trans hl.members
  onInstance := hu.onInstance hl.onInstance
  onStatic := hu.onStatic hl.onStatic
  views := hl.views.sublist (views_sublist hu.grows _)

/-- **What a container displays stays in order**: the places of its members are settled. -/
theorem displays (hu : Upholds n s s') (hn : s.members.size ≤ n) {sorted : Bool}
    {exports : List (Option SymbolId)} {entries shown : List MemberHandle}
    (hd : s.Displays sorted exports entries shown) : s'.Displays sorted exports entries shown where
  registered := hd.registered.imp fun _ _ => hu.isMember
  perm := hd.perm
  order := by
    have horder := hd.order
    split
    · rename_i hsorted
      rw [if_pos hsorted] at horder
      refine horder.mono hd.perm (fun a ha => ?_) fun a ha horiginal => ?_
      · exact decide_eq_true (hu.original_of (of_decide_eq_true ha))
      · obtain ⟨k, hk⟩ := forall₂_right (P := fun x => ∃ k, s.IsMember k x) (fun k _ hk => ⟨k, hk⟩)
          hd.registered a ha
        have hkey : s.members.keyAt a.index ≠ none := by
          rw [Registry.keyAt_of_find? hk]
          exact fun e => nomatch e
        exact Member.sortKey_eq_of_standing (hu.standing a
          (Nat.lt_of_lt_of_le (Registry.lt_size_of_find? hk) hn) hkey (of_decide_eq_true horiginal))
    · rename_i hunsorted
      rwa [if_neg hunsorted] at horder

/-- **The signature stays** that of the type. -/
theorem signedByType (hu : Upholds n s s') {f : Facts} {filled : List RecordHandle}
    (hfilled : filled ⊆ s.filled) {h : MemberHandle} (hsame : s'.member h = s.member h) {symbol : SymbolId}
    (hs : s.SignedByType f filled h symbol) : s'.SignedByType f filled h symbol := by
  intro hkind d hd hassigned
  rw [hsame] at hkind hd ⊢
  obtain ⟨t, ht, hsigned⟩ := hs hkind d hd hassigned
  exact ⟨t, hu.isType ht, fun hin => (hsigned hin).congr (hu.type t (hfilled hin))⟩

theorem memberDone (hu : Upholds n s s') (hn : n ≤ n') (hsize : s.members.size ≤ n)
    (hsound : ∀ h, .member h ∈ s.filled → s.HasMember h) {filled : List RecordHandle}
    (hfilled : filled ⊆ s.filled) {h : MemberHandle} (hsame : s'.member h = s.member h)
    {symbol : SymbolId} (hdone : s.MemberDone cx n filled h symbol) :
    s'.MemberDone cx n' filled h symbol := by
  obtain ⟨overloaded, hdone⟩ := hdone
  obtain ⟨inherited, hdocs, hinherits⟩ := hdone.docs
  refine ⟨overloaded, ⟨?_, ?_, ?_, fun hcandidates => ?_, ⟨inherited, ?_, ?_⟩, ?_⟩, fun hclass => ?_,
    fun hcontainer => ?_, hu.signedByType hfilled hsame hdone.signed⟩
  · rw [hsame]
    exact hdone.raw
  · rw [hsame]
    exact hdone.id
  · rw [hsame]
    exact hdone.named
  · rw [hsame]
    exact hu.linked hn hcandidates (hdone.link (hu.originals_of hcandidates))
  · rw [hsame]
    exact hdocs
  · rw [hsame]
    exact hu.inherits hfilled hinherits
  · rw [hsame]
    exact hu.overloaded hsound hfilled hdone.overload
  · rw [hsame] at hclass
    obtain ⟨shown, statics, hlisting⟩ := hdone.listing hclass
    exact ⟨shown, statics, hu.listing (congrArg Member.members hsame) hlisting⟩
  · rw [hsame] at hcontainer ⊢
    obtain ⟨entries, shown, hshown, hdisplays⟩ := hdone.exports hcontainer
    exact ⟨entries, shown, hshown, hu.displays hsize hdisplays⟩

/-- A record agrees with another as long as both stay as they are. -/
theorem agrees (hu : Upholds n s s') {h source : TypeHandle}
    (hsame : (s'.type h).built = (s.type h).built) (hsource : .type source ∈ s.filled)
    (hagrees : s.Agrees h source) : s'.Agrees h source := by
  have hother := hu.type source hsource
  have htaken : ∀ a b : TypeExpr, (a.takeOver b).built = a.built.takeOver b.built := fun _ _ => rfl
  unfold Agrees at hagrees ⊢
  rw [htaken] at hagrees ⊢
  rw [hsame, hother]
  exact hagrees

theorem typeDone (hu : Upholds n s s') {filled : List RecordHandle} (hfilled : filled ⊆ s.filled)
    {h : TypeHandle} (hin : s.HasType h) (hsame : (s'.type h).built = (s.type h).built)
    (hdone : s.TypeDone cx filled h) : s'.TypeDone cx filled h := by
  intro k hk
  rw [hu.grows.types.keyAt _ hin] at hk
  obtain ⟨t, rfl, hraw, hmade⟩ := hdone k hk
  have hraw' : (s'.type h).raw = some t :=
    (congrArg TypeExpr.raw hsame : (s'.type h).built.raw = (s.type h).built.raw).trans hraw
  refine ⟨t, rfl, hraw', ?_⟩
  split at hmade
  · obtain ⟨shape, hshape, hshows⟩ := hmade
    exact ⟨shape, hshape, (hu.shows hshows).congr hsame⟩
  · obtain ⟨source, hsource, hagrees⟩ := hmade
    exact ⟨source, hu.isType hsource, fun hmem => hu.agrees hsame (hfilled hmem) (hagrees hmem)⟩

theorem unitDone (hu : Upholds n s s') (hsize : s.members.size ≤ n) {h : UnitHandle}
    (hin : s.HasUnit h) (hsame : s'.unit h = s.unit h) (hdone : s.UnitDone cx h) : s'.UnitDone cx h := by
  obtain ⟨position, unit, root, entries, hposition, hunit, hroot, hdisplays⟩ := hdone
  refine ⟨position, unit, root, entries, (hu.grows.units.keyAt _ hin).trans hposition, hunit, hroot, ?_⟩
  rw [hsame]
  exact hu.displays hsize hdisplays

/-- **What holds of a record holds in every later store**, as long as the record is not written.  Where
    it is no type record, the standing of all members must last. -/
theorem done (hu : Upholds n s s') (hn : n ≤ n')
    (hmembers : ∀ h, .member h ∈ s.filled → s.HasMember h) {filled : List RecordHandle}
    (hfilled : filled ⊆ s.filled) {x : RecordHandle} (hin : s.Has x)
    (hsize : (∀ h, x ≠ .type h) → s.members.size ≤ n) (hsame : s.Unwritten s' x)
    (hdone : s.Done cx n filled x) : s'.Done cx n' filled x := by
  cases x with
  | member h =>
    intro horiginal
    have hs := hu.original_of horiginal
    obtain ⟨symbol, hmember⟩ := hdone hs
    have hall := hsize fun _ => RecordHandle.noConfusion
    exact ⟨symbol, hu.memberDone hn hall hmembers hfilled (hsame hs) hmember⟩
  | type h => exact hu.typeDone hfilled hin hsame hdone
  | unit h => exact hu.unitDone (hsize fun _ => RecordHandle.noConfusion) hin hsame hdone

theorem unwritten (hu : Upholds n s s') {x : RecordHandle} (hx : x ∈ s.filled) :
    s.Unwritten s' x := by
  cases x with
  | member h => exact hu.member h hx
  | type h => exact hu.type h hx
  | unit h => exact hu.unit h hx

end Store.Upholds

end ApiReference
