/-
  Changes of the store, one by one.

  A build writes records, registers new ones, makes copies, notes which records are filled, and enters
  and leaves requests.  Each of these is a function of the store, and all of them keep the records that
  are there in their places.

  1. the changes;
  2. `Store.Grows`      -- more records, and old ones keep their keys;
  3. `Store.leave`      -- the end of a request;
  4. `Key`, `Store.register` -- what a record is registered for.
-/
import ApiReference.Build.Requests
import ApiReference.Proofs.Registry
import ApiReference.Proofs.Facts.Hierarchy
import ApiReference.Proofs.Model.Refers

namespace ApiReference

theorem MemberHandle.index_ne {a b : MemberHandle} (h : a ≠ b) : a.index ≠ b.index := by
  obtain ⟨i⟩ := a
  obtain ⟨j⟩ := b
  exact fun e => h (congrArg _ e)

theorem TypeHandle.index_ne {a b : TypeHandle} (h : a ≠ b) : a.index ≠ b.index := by
  obtain ⟨i⟩ := a
  obtain ⟨j⟩ := b
  exact fun e => h (congrArg _ e)

theorem UnitHandle.index_ne {a b : UnitHandle} (h : a ≠ b) : a.index ≠ b.index := by
  obtain ⟨i⟩ := a
  obtain ⟨j⟩ := b
  exact fun e => h (congrArg _ e)

/-! ## 1. The changes -/

namespace Store

variable (s : Store)

/-- One more request is running. -/
def enter : Store := { s with depth := s.depth + 1 }

/-- One record written. -/
def setMember (h : MemberHandle) (c : Member) : Store :=
  { s with members := s.members.modify h.index (fun _ => c) }

def setType (h : TypeHandle) (t : TypeExpr) : Store :=
  { s with types := s.types.modify h.index (fun _ => t) }

def setUnit (h : UnitHandle) (u : UnitRecord) : Store :=
  { s with units := s.units.modify h.index (fun _ => u) }

/-- One empty record more, with its key if it has one. -/
def addMember (key : Option (Option SymbolId)) : Store :=
  { s with members := s.members.push key {} }

def addType (key : Option (Option TypeRef)) : Store := { s with types := s.types.push key {} }

def addUnit (position : Nat) : Store := { s with units := s.units.push (some position) {} }

/-- One copy made while a request is running. -/
def copied (c : Copy) : Store :=
  { s.runCopy c with copies := s.copies ++ [c], pending := s.pending ++ [c] }

/-- One more record is filled. -/
def completed (x : RecordHandle) : Store := { s with filled := x :: s.filled }

theorem members_runCopy (c : Copy) : (s.runCopy c).members =
    s.members.modify c.target.index (fun _ => c.adjust.apply (s.member c.source)) := rfl

theorem members_setMember (h : MemberHandle) (r : Member) :
    (s.setMember h r).members = s.members.modify h.index (fun _ => r) := rfl

theorem member_setMember_self {s : Store} {h : MemberHandle} {r : Member} (hh : s.HasMember h) :
    (s.setMember h r).member h = r :=
  (Registry.recordAt_modify _ _ hh _).trans (if_pos rfl)

theorem member_setMember_ne {s : Store} {h x : MemberHandle} {r : Member} (hx : x ≠ h) :
    (s.setMember h r).member x = s.member x :=
  Registry.recordAt_modify_ne _ _ (MemberHandle.index_ne hx)

theorem types_setType (h : TypeHandle) (r : TypeExpr) :
    (s.setType h r).types = s.types.modify h.index (fun _ => r) := rfl

theorem type_setType_self {s : Store} {h : TypeHandle} {r : TypeExpr} (hh : s.HasType h) :
    (s.setType h r).type h = r :=
  (Registry.recordAt_modify _ _ hh _).trans (if_pos rfl)

theorem type_setType_ne {s : Store} {h x : TypeHandle} {r : TypeExpr} (hx : x ≠ h) :
    (s.setType h r).type x = s.type x :=
  Registry.recordAt_modify_ne _ _ (TypeHandle.index_ne hx)

theorem units_setUnit (h : UnitHandle) (r : UnitRecord) :
    (s.setUnit h r).units = s.units.modify h.index (fun _ => r) := rfl

theorem members_copied (c : Copy) : (s.copied c).members =
    s.members.modify c.target.index (fun _ => c.adjust.apply (s.member c.source)) := rfl

end Store

/-! ## 2. Growth -/

namespace Store

variable (s : Store)

/-- **A store with more records**; old ones keep their keys. -/
structure Grows (s s' : Store) : Prop where
  members : s.members.Grows s'.members
  types : s.types.Grows s'.types
  units : s.units.Grows s'.units

theorem Grows.refl : s.Grows s := ⟨.refl _, .refl _, .refl _⟩

variable {s} {s' s'' : Store}

theorem Grows.trans (h : s.Grows s') (h' : s'.Grows s'') : s.Grows s'' :=
  ⟨h.members.trans h'.members, h.types.trans h'.types, h.units.trans h'.units⟩

theorem grows_setMember (s : Store) (h : MemberHandle) (r : Member) : s.Grows (s.setMember h r) := by
  refine ⟨?_, .refl _, .refl _⟩
  rw [members_setMember]
  exact Registry.grows_modify ..

theorem unit_setUnit_self {s : Store} {h : UnitHandle} {r : UnitRecord} (hh : s.HasUnit h) :
    (s.setUnit h r).unit h = r :=
  (Registry.recordAt_modify _ _ hh _).trans (if_pos rfl)

theorem grows_setType (s : Store) (h : TypeHandle) (r : TypeExpr) : s.Grows (s.setType h r) := by
  refine ⟨.refl _, ?_, .refl _⟩
  rw [types_setType]
  exact Registry.grows_modify ..

theorem grows_setUnit (s : Store) (h : UnitHandle) (r : UnitRecord) : s.Grows (s.setUnit h r) := by
  refine ⟨.refl _, .refl _, ?_⟩
  rw [units_setUnit]
  exact Registry.grows_modify ..

theorem grows_addMember (s : Store) (k : Option (Option SymbolId)) : s.Grows (s.addMember k) :=
  ⟨Registry.grows_push .., .refl _, .refl _⟩

theorem grows_addType (s : Store) (k : Option (Option TypeRef)) : s.Grows (s.addType k) :=
  ⟨.refl _, Registry.grows_push .., .refl _⟩

theorem grows_addUnit (s : Store) (i : Nat) : s.Grows (s.addUnit i) :=
  ⟨.refl _, .refl _, Registry.grows_push ..⟩

theorem Grows.has (h : s.Grows s') {x : RecordHandle} (hx : s.Has x) : s'.Has x := by
  cases x with
  | member y => exact Nat.lt_of_lt_of_le hx h.members.size
  | type y => exact Nat.lt_of_lt_of_le hx h.types.size
  | unit y => exact Nat.lt_of_lt_of_le hx h.units.size

theorem Grows.extends (h : s.Grows s') : s.toModel.Extends s'.toModel :=
  ⟨h.members.size, h.types.size⟩

/-- Copies made in order change members only, and register none. -/
theorem foldl_runCopy (l : List Copy) (s : Store) :
    l.foldl runCopy s = { s with members := (l.foldl runCopy s).members } ∧
      s.members.Grows (l.foldl runCopy s).members ∧
      (l.foldl runCopy s).members.size = s.members.size := by
  induction l generalizing s with
  | nil => exact ⟨rfl, .refl _, rfl⟩
  | cons d l ih =>
    obtain ⟨he, hg, hs⟩ := ih (s.runCopy d)
    rw [List.foldl_cons]
    rw [members_runCopy] at hg hs
    exact ⟨he.trans rfl, (Registry.grows_modify ..).trans hg, hs.trans (Registry.size_modify ..)⟩

/-- Copies made in order leave alone what none of them is made onto. -/
theorem member_foldl_runCopy {l : List Copy} {h : MemberHandle} (hl : ∀ d ∈ l, d.target ≠ h)
    (s : Store) : (l.foldl runCopy s).member h = s.member h := by
  induction l generalizing s with
  | nil => rfl
  | cons d l ih =>
    rw [List.foldl_cons, ih fun e he => hl e (List.mem_cons_of_mem d he)]
    exact Registry.recordAt_modify_ne _ _ (MemberHandle.index_ne (hl d List.mem_cons_self).symm)

/-! ## 3. The end of a request -/

/-- Inside another request, the end of a request only counts down. -/
theorem leave_inner (h : 1 < s.depth) : s.leave = { s with depth := s.depth - 1 } := by
  unfold leave
  exact if_neg (by dsimp only; omega)

/-- The end of the outermost request makes the pending copies again. -/
theorem leave_last (h : s.depth ≤ 1) : s.leave =
    { s with members := (s.pending.foldl runCopy s).members, depth := 0, pending := [] } := by
  have hd : s.depth - 1 = 0 := by omega
  have hfold : ∀ (l : List Copy) (s : Store), (l.foldl runCopy { s with depth := 0 }) =
      { l.foldl runCopy s with depth := 0 } := by
    intro l
    induction l with
    | nil => exact fun s => rfl
    | cons d l ih =>
      intro s
      rw [List.foldl_cons, List.foldl_cons]
      exact ih (s.runCopy d)
  unfold leave
  rw [if_pos hd]
  show ({ s.pending.foldl runCopy { s with depth := s.depth - 1 } with pending := [] } : Store) = _
  rw [hd, hfold, (foldl_runCopy s.pending s).1]

theorem depth_leave : s.leave.depth = s.depth - 1 := by
  by_cases h : 1 < s.depth
  · rw [leave_inner h]
  · rw [leave_last (Nat.not_lt.1 h)]
    show 0 = s.depth - 1
    omega

theorem copies_leave : s.leave.copies = s.copies := by
  by_cases h : 1 < s.depth
  · rw [leave_inner h]
  · rw [leave_last (Nat.not_lt.1 h)]

theorem filled_leave : s.leave.filled = s.filled := by
  by_cases h : 1 < s.depth
  · rw [leave_inner h]
  · rw [leave_last (Nat.not_lt.1 h)]

theorem types_leave : s.leave.types = s.types := by
  by_cases h : 1 < s.depth
  · rw [leave_inner h]
  · rw [leave_last (Nat.not_lt.1 h)]

theorem units_leave : s.leave.units = s.units := by
  by_cases h : 1 < s.depth
  · rw [leave_inner h]
  · rw [leave_last (Nat.not_lt.1 h)]

theorem grows_leave (s : Store) : s.Grows s.leave := by
  by_cases h : 1 < s.depth
  · rw [leave_inner h]
    exact ⟨.refl _, .refl _, .refl _⟩
  · rw [leave_last (Nat.not_lt.1 h)]
    exact ⟨(foldl_runCopy s.pending s).2.1, .refl _, .refl _⟩

theorem size_members_leave : s.leave.members.size = s.members.size := by
  by_cases h : 1 < s.depth
  · rw [leave_inner h]
  · rw [leave_last (Nat.not_lt.1 h)]
    exact (foldl_runCopy s.pending s).2.2

/-- The end of a request leaves alone what no copy was made onto. -/
theorem member_leave {h : MemberHandle} (hh : ∀ d ∈ s.pending, d.target ≠ h) :
    s.leave.member h = s.member h := by
  by_cases hd : 1 < s.depth
  · rw [leave_inner hd]
  · rw [leave_last (Nat.not_lt.1 hd)]
    exact member_foldl_runCopy hh s

/-- The log of filled records is no part of the end of a request. -/
theorem leave_completed (s : Store) (x : RecordHandle) :
    (s.completed x).leave = s.leave.completed x := by
  by_cases h : 1 < s.depth
  · rw [leave_inner h, leave_inner (s := s.completed x) h]
    rfl
  · have hfold : ∀ (l : List Copy) (s : Store),
        l.foldl runCopy (s.completed x) = (l.foldl runCopy s).completed x := by
      intro l
      induction l with
      | nil => exact fun s => rfl
      | cons d l ih => exact fun s => ih (s.runCopy d)
    rw [leave_last (Nat.not_lt.1 h), leave_last (s := s.completed x) (Nat.not_lt.1 h)]
    show ({ s.completed x with
      members := (s.pending.foldl runCopy (s.completed x)).members, depth := 0, pending := [] } : Store) = _
    rw [hfold]
    rfl

/-- Between requests no copy waits. -/
def Calm (s : Store) : Prop := s.depth = 0 → s.pending = []

theorem calm_leave (s : Store) : s.leave.Calm := by
  intro hd
  by_cases h : 1 < s.depth
  · rw [depth_leave] at hd
    omega
  · rw [leave_last (Nat.not_lt.1 h)]

/-- A request that ends at once leaves no trace. -/
theorem leave_enter (h : s.Calm) : s.enter.leave = s := by
  by_cases hd : s.depth = 0
  · rw [leave_last (by show s.depth + 1 ≤ 1; omega)]
    have hp : s.enter.pending = [] := h hd
    obtain ⟨m, d, c, p, f, w⟩ := s
    cases hd
    cases hp
    rfl
  · rw [leave_inner (by show 1 < s.depth + 1; omega)]
    rfl

end Store

/-! ## 4. Keys -/

/-- **What a record is registered for.** -/
inductive Key where
  | member (symbol : Option SymbolId)
  | type (type : Option TypeRef)
  | unit (position : Nat)
deriving DecidableEq

namespace Key

/-- The position of a key in its registry. -/
def position? (s : Store) : Key → Option Nat
  | .member k => s.members.find? k
  | .type k => s.types.find? k
  | .unit i => s.units.find? i

/-- The record at a position of the registry of a key. -/
def recordAt : Key → Nat → RecordHandle
  | .member _, h => .member ⟨h⟩
  | .type _, h => .type ⟨h⟩
  | .unit _, h => .unit ⟨h⟩

/-- The record that the next registration of a key makes. -/
def next (s : Store) : Key → RecordHandle
  | .member _ => .member ⟨s.members.size⟩
  | .type _ => .type ⟨s.types.size⟩
  | .unit _ => .unit ⟨s.units.size⟩

/-- The keys that builds over these facts can register. -/
def Declared (f : Facts) : Key → Prop
  | .member k => f.SymbolKey k
  | .type k => f.TypeKey k
  | .unit i => f.UnitKey i

end Key

/-- The store with an empty record for a key. -/
def Store.register (s : Store) : Key → Store
  | .member k => s.addMember (some k)
  | .type k => s.addType (some k)
  | .unit i => s.addUnit i

namespace Store

variable {s s' : Store} {key : Key}

theorem grows_register (s : Store) (key : Key) : s.Grows (s.register key) := by
  cases key with
  | member k => exact ⟨Registry.grows_push .., .refl _, .refl _⟩
  | type k => exact ⟨.refl _, Registry.grows_push .., .refl _⟩
  | unit i => exact ⟨.refl _, .refl _, Registry.grows_push ..⟩

theorem grows_enter_register (s : Store) (key : Key) : s.Grows (s.enter.register key) :=
  have h := grows_register s.enter key
  ⟨h.members, h.types, h.units⟩

theorem depth_register : (s.register key).depth = s.depth := by cases key <;> rfl

theorem copies_register : (s.register key).copies = s.copies := by cases key <;> rfl

theorem pending_register : (s.register key).pending = s.pending := by cases key <;> rfl

theorem filled_register : (s.register key).filled = s.filled := by cases key <;> rfl

theorem member_register {h : MemberHandle} (hh : s.HasMember h) :
    (s.register key).member h = s.member h := by
  cases key with
  | member k => exact (Registry.recordAt_push ..).trans (if_neg (Nat.ne_of_lt hh))
  | type k => rfl
  | unit i => rfl

theorem type_register {h : TypeHandle} (hh : s.HasType h) :
    (s.register key).type h = s.type h := by
  cases key with
  | member k => rfl
  | type k => exact (Registry.recordAt_push ..).trans (if_neg (Nat.ne_of_lt hh))
  | unit i => rfl

theorem unit_register {h : UnitHandle} (hh : s.HasUnit h) :
    (s.register key).unit h = s.unit h := by
  cases key with
  | member k => rfl
  | type k => rfl
  | unit i => exact (Registry.recordAt_push ..).trans (if_neg (Nat.ne_of_lt hh))

/-- A filling runs inside a request, where calm says nothing. -/
theorem calm_register (s : Store) (key : Key) : (s.enter.register key).Calm := by
  intro hd
  rw [depth_register] at hd
  exact absurd hd (Nat.succ_ne_zero _)

/-- A key with a record keeps it. -/
theorem Grows.position? (hg : s.Grows s') {h : Nat} (hk : key.position? s = some h) :
    key.position? s' = some h := by
  cases key with
  | member k => exact hg.members.find? k h hk
  | type k => exact hg.types.find? k h hk
  | unit i => exact hg.units.find? i h hk

theorem Grows.position?_eq_none (hg : s.Grows s') (hk : key.position? s' = none) :
    key.position? s = none := by
  cases h : key.position? s with
  | none => rfl
  | some i => exact absurd (hg.position? h) (by rw [hk]; exact fun e => nomatch e)

theorem position?_register {key : Key} (hk : key.position? s = none) :
    key.position? (s.enter.register key) ≠ none := by
  have hsome : ∃ h, key.position? (s.enter.register key) = some h := by
    cases key with
    | member k => exact ⟨_, Registry.find?_push_self hk _⟩
    | type k => exact ⟨_, Registry.find?_push_self hk _⟩
    | unit i => exact ⟨_, Registry.find?_push_self hk _⟩
  obtain ⟨h, hh⟩ := hsome
  rw [hh]
  exact fun e => nomatch e

end Store

end ApiReference
