/-
  Records refer to records that exist.

  A handle stands for a record only once that record was registered, so a record may hold only handles
  below the sizes of the registries.  This is what lets a reader follow any handle it finds, now and
  after the registries have grown.

  1. `HasMember`, `HasType`, `Extends` -- handles of a model, and models with more records;
  2. `Refers`       -- a record all of whose handles belong to the model;
  3. `Refers.mono`  -- they still do when the model grows;
  4. what tags, copies and parts of parameters leave of it.
-/
import ApiReference.Build.Store
import ApiReference.Model.Tags
import Mathlib.Data.List.Basic

namespace ApiReference

/-! ## 1. Handles of a model -/

namespace Model

variable (m : Model)

/-- The handle belongs to a member record. -/
def HasMember (h : MemberHandle) : Prop := h.index < m.members.size

/-- The handle belongs to a type record. -/
def HasType (h : TypeHandle) : Prop := h.index < m.types.size

/-- The handle belongs to a unit record. -/
def HasUnit (h : UnitHandle) : Prop := h.index < m.units.size

/-- The handle belongs to a record. -/
def Has : RecordHandle → Prop
  | .member h => m.HasMember h
  | .type h => m.HasType h
  | .unit h => m.HasUnit h

/-- Optional handles, and optional lists of them, as records hold them. -/
def MemberIn (o : Option MemberHandle) : Prop := ∀ h ∈ o, m.HasMember h

def MembersIn (o : Option (List (Option MemberHandle))) : Prop := ∀ hs ∈ o, ∀ h ∈ hs, m.MemberIn h

def TypeIn (o : Option TypeHandle) : Prop := ∀ h ∈ o, m.HasType h

def TypesIn (o : Option (List (Option TypeHandle))) : Prop := ∀ hs ∈ o, ∀ h ∈ hs, m.TypeIn h

/-- **A model with more records.** -/
structure Extends (m m' : Model) : Prop where
  members : m.members.size ≤ m'.members.size
  types : m.types.size ≤ m'.types.size

variable {m} {m' : Model}

theorem HasMember.mono {h : MemberHandle} (hh : m.HasMember h) (he : m.Extends m') :
    m'.HasMember h :=
  Nat.lt_of_lt_of_le hh he.members

theorem HasType.mono {h : TypeHandle} (hh : m.HasType h) (he : m.Extends m') : m'.HasType h :=
  Nat.lt_of_lt_of_le hh he.types

theorem MemberIn.none : m.MemberIn none := fun _ h => nomatch h

theorem MemberIn.some {h : MemberHandle} (hh : m.HasMember h) : m.MemberIn (some h) := by
  intro x hx
  cases hx
  exact hh

theorem MemberIn.mono {o : Option MemberHandle} (ho : m.MemberIn o) (he : m.Extends m') :
    m'.MemberIn o :=
  fun h hh => (ho h hh).mono he

theorem MembersIn.none : m.MembersIn none := fun _ h => nomatch h

theorem MembersIn.some {hs : List (Option MemberHandle)} (h : ∀ x ∈ hs, m.MemberIn x) :
    m.MembersIn (some hs) := by
  intro ys hy
  cases hy
  exact h

/-- Members that are all there. -/
theorem MembersIn.of_handles {hs : List MemberHandle} (h : ∀ x ∈ hs, m.HasMember x) :
    m.MembersIn (.some (hs.map Option.some)) := by
  refine .some fun x hx => ?_
  obtain ⟨y, hy, rfl⟩ := List.mem_map.1 hx
  exact .some (h y hy)

/-- What was listed before, and more. -/
theorem MembersIn.append {o : Option (List (Option MemberHandle))} {hs : List (Option MemberHandle)}
    (ho : m.MembersIn o) (h : ∀ x ∈ hs, m.MemberIn x) : m.MembersIn (.some (o.getD [] ++ hs)) := by
  refine .some fun x hx => ?_
  rcases List.mem_append.1 hx with hx | hx
  · cases o with
    | none => exact absurd hx List.not_mem_nil
    | some ys => exact ho ys rfl x hx
  · exact h x hx

theorem MembersIn.mono {o : Option (List (Option MemberHandle))} (ho : m.MembersIn o)
    (he : m.Extends m') : m'.MembersIn o :=
  fun hs h x hx => (ho hs h x hx).mono he

theorem TypeIn.none : m.TypeIn none := fun _ h => nomatch h

theorem TypeIn.some {h : TypeHandle} (hh : m.HasType h) : m.TypeIn (some h) := by
  intro x hx
  cases hx
  exact hh

theorem TypeIn.mono {o : Option TypeHandle} (ho : m.TypeIn o) (he : m.Extends m') : m'.TypeIn o :=
  fun h hh => (ho h hh).mono he

theorem TypesIn.none : m.TypesIn none := fun _ h => nomatch h

theorem TypesIn.some {hs : List (Option TypeHandle)} (h : ∀ x ∈ hs, m.TypeIn x) :
    m.TypesIn (some hs) := by
  intro ys hy
  cases hy
  exact h

theorem TypesIn.of_handles {hs : List TypeHandle} (h : ∀ x ∈ hs, m.HasType x) :
    m.TypesIn (.some (hs.map Option.some)) := by
  refine .some fun x hx => ?_
  obtain ⟨y, hy, rfl⟩ := List.mem_map.1 hx
  exact .some (h y hy)

theorem TypesIn.mono {o : Option (List (Option TypeHandle))} (ho : m.TypesIn o)
    (he : m.Extends m') : m'.TypesIn o :=
  fun hs h x hx => (ho hs h x hx).mono he

end Model

/-! ## 2. Records -/

variable {m m' : Model}

/-- **A parameter whose types exist**, the parts of it too. -/
inductive Parameter.Refers (m : Model) : Parameter → Prop where
  | intro {p : Parameter} (type : m.TypeIn p.type)
      (parts : ∀ ps, p.subParameters = some ps → ∀ q ∈ ps, Refers m q) : Refers m p

/-- **A type parameter whose types exist.** -/
structure TypeParameter.Refers (m : Model) (p : TypeParameter) : Prop where
  constraint : m.TypeIn p.constraint
  default : m.TypeIn p.default

/-- Optional lists of parameters, as members and signatures hold them. -/
def Model.ParametersIn (m : Model) (o : Option (List Parameter)) : Prop :=
  ∀ ps ∈ o, ∀ p ∈ ps, Parameter.Refers m p

def Model.GenericsIn (m : Model) (o : Option (List TypeParameter)) : Prop :=
  ∀ ps ∈ o, ∀ p ∈ ps, TypeParameter.Refers m p

/-- **A member whose references exist.** -/
structure Member.Refers (m : Model) (c : Member) : Prop where
  parent : m.MemberIn c.parent
  base : m.MemberIn c.base
  overrides : m.MemberIn c.overrides
  type : m.TypeIn c.type
  typeParameters : m.GenericsIn c.typeParameters
  parameters : m.ParametersIn c.parameters
  returnType : m.TypeIn c.returnType
  overloads : m.MembersIn c.overloads
  classOrInterface : m.MemberIn c.classOrInterface
  namespace_ : m.MemberIn c.namespace_
  declaredType : m.TypeIn c.declaredType
  extends_ : m.TypesIn c.extends_
  implements : m.TypesIn c.implements
  members : m.MembersIn c.members

/-- **A type record whose references exist.** -/
structure TypeExpr.Refers (m : Model) (t : TypeExpr) : Prop where
  member : m.MemberIn t.member
  spans : ∀ ss ∈ t.spans, ∀ o, Span.type o ∈ ss → m.TypeIn o
  target : m.TypeIn t.target
  typeArguments : m.TypesIn t.typeArguments
  element : m.TypeIn t.element
  elements : m.TypesIn t.elements
  key : m.TypeIn t.key
  operands : m.TypesIn t.operands
  typeParameters : m.GenericsIn t.typeParameters
  parameters : m.ParametersIn t.parameters
  returnType : m.TypeIn t.returnType
  members : m.MembersIn t.members
  checkType : m.TypeIn t.checkType
  extendsType : m.TypeIn t.extendsType
  expansion : ∀ o, t.expansion = some (.record o) → m.TypeIn o
  branches : ∀ yes no, t.branches = some (.records yes no) → m.TypeIn yes ∧ m.TypeIn no
  expanded : m.TypeIn t.expanded
  resolved : ∀ pair ∈ t.resolved, m.TypeIn pair.1 ∧ m.TypeIn pair.2

/-- **A unit whose members exist.** -/
def UnitRecord.Refers (m : Model) (u : UnitRecord) : Prop := ∀ h ∈ u.members, m.HasMember h

/-- What a copy shows on its own exists. -/
def Adjust.Refers (m : Model) : Adjust → Prop
  | .asStatic parent _ => m.HasMember parent
  | .asInherited base _ => m.HasMember base
  | .withRaw _ => True

/-- An empty record refers to nothing. -/
theorem Member.refers_empty : ({} : Member).Refers m where
  parent := .none
  base := .none
  overrides := .none
  type := .none
  typeParameters := fun _ h => nomatch h
  parameters := fun _ h => nomatch h
  returnType := .none
  overloads := .none
  classOrInterface := .none
  namespace_ := .none
  declaredType := .none
  extends_ := .none
  implements := .none
  members := .none

theorem TypeExpr.refers_empty : ({} : TypeExpr).Refers m where
  member := .none
  spans := fun _ h => nomatch h
  target := .none
  typeArguments := .none
  element := .none
  elements := .none
  key := .none
  operands := .none
  typeParameters := fun _ h => nomatch h
  parameters := fun _ h => nomatch h
  returnType := .none
  members := .none
  checkType := .none
  extendsType := .none
  expansion := fun _ h => nomatch h
  branches := fun _ _ h => nomatch h
  expanded := .none
  resolved := fun _ h => nomatch h

theorem UnitRecord.refers_empty : ({} : UnitRecord).Refers m :=
  fun _ h => absurd h List.not_mem_nil

/-! ## 3. Growing models -/

theorem Parameter.Refers.mono {p : Parameter} (hp : p.Refers m) (he : m.Extends m') :
    p.Refers m' := by
  induction hp with
  | intro type _ ih => exact .intro (type.mono he) ih

theorem TypeParameter.Refers.mono {p : TypeParameter} (hp : p.Refers m) (he : m.Extends m') :
    p.Refers m' :=
  ⟨hp.constraint.mono he, hp.default.mono he⟩

theorem Model.ParametersIn.mono {o : Option (List Parameter)} (ho : m.ParametersIn o)
    (he : m.Extends m') : m'.ParametersIn o :=
  fun ps hps p hp => (ho ps hps p hp).mono he

theorem Model.GenericsIn.mono {o : Option (List TypeParameter)} (ho : m.GenericsIn o)
    (he : m.Extends m') : m'.GenericsIn o :=
  fun ps hps p hp => (ho ps hps p hp).mono he

theorem Member.Refers.mono {c : Member} (hc : c.Refers m) (he : m.Extends m') : c.Refers m' where
  parent := hc.parent.mono he
  base := hc.base.mono he
  overrides := hc.overrides.mono he
  type := hc.type.mono he
  typeParameters := hc.typeParameters.mono he
  parameters := hc.parameters.mono he
  returnType := hc.returnType.mono he
  overloads := hc.overloads.mono he
  classOrInterface := hc.classOrInterface.mono he
  namespace_ := hc.namespace_.mono he
  declaredType := hc.declaredType.mono he
  extends_ := hc.extends_.mono he
  implements := hc.implements.mono he
  members := hc.members.mono he

theorem TypeExpr.Refers.mono {t : TypeExpr} (ht : t.Refers m) (he : m.Extends m') : t.Refers m' where
  member := ht.member.mono he
  spans := fun ss hss o ho => (ht.spans ss hss o ho).mono he
  target := ht.target.mono he
  typeArguments := ht.typeArguments.mono he
  element := ht.element.mono he
  elements := ht.elements.mono he
  key := ht.key.mono he
  operands := ht.operands.mono he
  typeParameters := ht.typeParameters.mono he
  parameters := ht.parameters.mono he
  returnType := ht.returnType.mono he
  members := ht.members.mono he
  checkType := ht.checkType.mono he
  extendsType := ht.extendsType.mono he
  expansion := fun o ho => (ht.expansion o ho).mono he
  branches := fun yes no h => ⟨(ht.branches yes no h).1.mono he, (ht.branches yes no h).2.mono he⟩
  expanded := ht.expanded.mono he
  resolved := fun p hp => ⟨(ht.resolved p hp).1.mono he, (ht.resolved p hp).2.mono he⟩

theorem UnitRecord.Refers.mono {u : UnitRecord} (hu : u.Refers m) (he : m.Extends m') : u.Refers m' :=
  fun h hh => (hu h hh).mono he

/-! ## 4. Changes that keep references -/

/-- Another list of members. -/
theorem Member.Refers.listing {c : Member} (hc : c.Refers m) {l : Option (List (Option MemberHandle))}
    (hl : m.MembersIn l) : Member.Refers m { c with members := l } := { hc with members := hl }

/-- A tag changes texts and marks only. -/
theorem Member.Refers.applyTag {c : Member} (hc : c.Refers m) (tag : Tag) :
    (c.applyTag tag).Refers m := by
  unfold Member.applyTag
  split <;> exact { hc with }

theorem Member.Refers.applyTags {c : Member} (hc : c.Refers m) (tags : List Tag) (access : Modifier) :
    (c.applyTags tags access).1.Refers m := by
  unfold Member.applyTags
  induction tags generalizing c access with
  | nil => exact hc
  | cons tag r ih =>
    rw [List.foldl_cons]
    unfold Member.foldTag
    dsimp only
    split
    · exact ih hc access
    · split
      · exact ih (c := c.mapDocs _) { hc with } _
      · exact ih (hc.applyTag tag) _

theorem UnitRecord.Refers.applyTags {u : UnitRecord} (hu : u.Refers m) (tags : List Tag) :
    (u.applyTags tags).Refers m := by
  unfold UnitRecord.applyTags
  induction tags generalizing u with
  | nil => exact hu
  | cons tag r ih =>
    rw [List.foldl_cons]
    refine ih ?_
    unfold UnitRecord.applyTag
    split <;> exact hu

/-- An adjusted copy refers to what its source does, and to what the adjustment adds. -/
theorem Adjust.Refers.apply {a : Adjust} (ha : a.Refers m) {c : Member} (hc : c.Refers m) :
    (a.apply c).Refers m := by
  cases a with
  | asStatic parent id => exact { hc with parent := .some ha }
  | asInherited base id => exact { hc with base := .some ha }
  | withRaw symbol => exact { hc with }

/-- One more part of a parameter. -/
theorem Parameter.Refers.addSub {p sub : Parameter} (hp : p.Refers m) (hsub : sub.Refers m) :
    (p.addSub sub).Refers m := by
  cases hp with
  | intro type parts =>
    refine .intro type fun ps hps q hq => ?_
    cases hps
    rcases List.mem_append.1 hq with hq | hq
    · cases h : p.subParameters with
      | none =>
        rw [h] at hq
        exact absurd hq List.not_mem_nil
      | some qs =>
        rw [h] at hq
        exact parts qs h q hq
    · rw [List.mem_singleton.1 hq]
      exact hsub

/-- A record that takes over another refers to what that one does. -/
theorem TypeExpr.Refers.takeOver {t source : TypeExpr} (hs : source.Refers m) :
    (t.takeOver source).Refers m :=
  { hs with }

end ApiReference
