/-
  What a build does to the store, step by step.

  A filling owns the record it fills and the records without a key that were made since it began, until
  those are filled.  It writes to these only, registers other keys and lets them be filled before it
  goes on, and ends in a result or a fault.  `Trace` lists these steps once, guards included; what holds
  of all of them holds of every build.

  1. `Scope`          -- what a filling owns;
  2. `Change`         -- one write;
  3. `Trace`            -- writes and nested fillings up to a result or a fault;
  4. `Kept`           -- what a run leaves alone: every record that it does not own;
  5. nested fillings, and whole runs;
  6. what is worked out on first use.
-/
import ApiReference.Proofs.Build.Done
import ApiReference.Proofs.Build.Walks

namespace ApiReference

/-! ## 1. Scopes -/

/-- **What a filling owns**: the record it fills, and the records without a key from some size on. -/
structure Scope where
  member : Option MemberHandle := none
  type : Option TypeHandle := none
  unit : Option UnitHandle := none
  members : Nat
  types : Nat

namespace Scope

/-- The scope of the filling that a request begins. -/
def ofKey (s : Store) : Key → Scope
  | .member _ =>
    { member := some ⟨s.members.size⟩, members := s.members.size + 1, types := s.types.size }
  | .type _ => { type := some ⟨s.types.size⟩, members := s.members.size, types := s.types.size + 1 }
  | .unit _ => { unit := some ⟨s.units.size⟩, members := s.members.size, types := s.types.size }

/-- The scope of whoever asks: it owns nothing that is there. -/
def outer (s : Store) : Scope := { members := s.members.size, types := s.types.size }

variable (c : Scope) (s : Store)

/-- Members are written inside requests only, and nobody owns what is filled. -/
def OwnsMember (h : MemberHandle) : Prop :=
  0 < s.depth ∧ .member h ∉ s.filled ∧
    (c.member = some h ∨ (c.members ≤ h.index ∧ s.members.keyAt h.index = none))

def OwnsType (h : TypeHandle) : Prop :=
  .type h ∉ s.filled ∧ (c.type = some h ∨ (c.types ≤ h.index ∧ s.types.keyAt h.index = none))

/-- A unit is owned by its own filling. -/
def OwnsUnit (h : UnitHandle) : Prop := .unit h ∉ s.filled ∧ c.unit = some h

/-- A record without a key that was made since the filling began and is not filled. -/
def Loose : RecordHandle → Prop
  | .member h => s.HasMember h ∧ c.members ≤ h.index ∧ s.members.keyAt h.index = none ∧
      .member h ∉ s.filled
  | .type h => s.HasType h ∧ c.types ≤ h.index ∧ s.types.keyAt h.index = none ∧ .type h ∉ s.filled
  | .unit _ => False

/-- A record without a key that was made since the filling began, or one that will be made; a unit is
    made outside of requests only. -/
def Past : RecordHandle → Prop
  | .member h => (c.members ≤ h.index ∧ s.members.keyAt h.index = none) ∨ s.members.size ≤ h.index
  | .type h => (c.types ≤ h.index ∧ s.types.keyAt h.index = none) ∨ s.types.size ≤ h.index
  | .unit h => s.units.size ≤ h.index ∧ s.depth = 0

/-- **What a member may come to list**: registered members, and members without a key that were made
    since the filling began and that nobody lists so far. -/
def MayList (h : MemberHandle) (r : Member) : Prop :=
  ∀ v, r.Lists v → (s.member h).Lists v ∨ s.members.keyAt v.index ≠ none ∨
    (c.members ≤ v.index ∧ s.Unlisted v)

/-- The scope of a filling that is under way: its record is there and not filled, and a member is
    filled inside a request. -/
structure Fits : Prop where
  member : ∀ h, c.member = some h → s.HasMember h ∧ h.index < c.members ∧ .member h ∉ s.filled
  inside : c.member ≠ none → 0 < s.depth
  type : ∀ h, c.type = some h → s.HasType h ∧ h.index < c.types ∧ .type h ∉ s.filled
  unit : ∀ h, c.unit = some h → s.HasUnit h ∧ .unit h ∉ s.filled
  members : c.members ≤ s.members.size
  types : c.types ≤ s.types.size

variable {c s} {s' : Store}

/-- What is no list may be written freely. -/
theorem mayList_of_members {h : MemberHandle} {r : Member} (hr : r.members = (s.member h).members) :
    c.MayList s h r := by
  intro v hv
  unfold Member.Lists at hv ⊢
  rw [hr] at hv
  exact .inl hv

theorem Fits.depth (h : c.Fits s) {x : MemberHandle} (hx : c.member = some x) : 0 < s.depth :=
  h.inside (by rw [hx]; exact fun e => nomatch e)

/-- The record that is filled is owned. -/
theorem Fits.ownsMember (h : c.Fits s) {x : MemberHandle} (hx : c.member = some x) :
    c.OwnsMember s x :=
  ⟨h.depth hx, (h.member x hx).2.2, .inl hx⟩

theorem Fits.ownsType (h : c.Fits s) {x : TypeHandle} (hx : c.type = some x) : c.OwnsType s x :=
  ⟨(h.type x hx).2.2, .inl hx⟩

theorem Fits.ownsUnit (h : c.Fits s) {x : UnitHandle} (hx : c.unit = some x) : c.OwnsUnit s x :=
  ⟨(h.unit x hx).2, hx⟩

theorem Loose.past {x : RecordHandle} (h : c.Loose s x) : c.Past s x := by
  cases x with
  | member h' => exact .inl ⟨h.2.1, h.2.2.1⟩
  | type h' => exact .inl ⟨h.2.1, h.2.2.1⟩
  | unit h' => exact h.elim

/-- The record that is filled is not one that was made since. -/
theorem Fits.not_past_member (h : c.Fits s) {x : MemberHandle} (hx : c.member = some x) :
    ¬ c.Past s (.member x) := by
  obtain ⟨hin, hlt, -⟩ := h.member x hx
  have hin' : x.index < s.members.size := hin
  rintro (⟨hle, -⟩ | hle) <;> omega

theorem Fits.not_past_type (h : c.Fits s) {x : TypeHandle} (hx : c.type = some x) :
    ¬ c.Past s (.type x) := by
  obtain ⟨hin, hlt, -⟩ := h.type x hx
  have hin' : x.index < s.types.size := hin
  rintro (⟨hle, -⟩ | hle) <;> omega

/-- A new filling fills no record that was there before. -/
theorem member_ofKey_ne {key : Key} {h : MemberHandle} (hh : s.HasMember h) :
    (ofKey s key).member ≠ some h := by
  have hlt : h.index < s.members.size := hh
  intro he
  cases key <;> simp only [ofKey, Option.some.injEq, reduceCtorEq] at he
  rw [← he] at hlt
  exact Nat.lt_irrefl _ hlt

/-- The scope of a new filling owns no record that was there before. -/
theorem not_ownsMember_ofKey {key : Key} {h : MemberHandle} (hh : s.HasMember h) :
    ¬ (ofKey s key).OwnsMember s' h := by
  have hlt : h.index < s.members.size := hh
  rintro ⟨-, -, he | ⟨hle, -⟩⟩
  · exact member_ofKey_ne hh he
  · cases key <;> simp only [ofKey] at hle <;> omega

theorem not_ownsType_ofKey {key : Key} {h : TypeHandle} (hh : s.HasType h) :
    ¬ (ofKey s key).OwnsType s' h := by
  have hlt : h.index < s.types.size := hh
  rintro ⟨-, he | ⟨hle, -⟩⟩
  · cases key <;> simp only [ofKey, Option.some.injEq, reduceCtorEq] at he
    rw [← he] at hlt
    exact Nat.lt_irrefl _ hlt
  · cases key <;> simp only [ofKey] at hle <;> omega

theorem not_ownsUnit_ofKey {key : Key} {h : UnitHandle} (hh : s.HasUnit h) :
    ¬ (ofKey s key).OwnsUnit s' h := by
  have hlt : h.index < s.units.size := hh
  rintro ⟨-, he⟩
  cases key <;> simp only [ofKey, Option.some.injEq, reduceCtorEq] at he
  rw [← he] at hlt
  exact Nat.lt_irrefl _ hlt

/-- What a new filling makes is made after what was there before. -/
theorem past_of_ofKey {key : Key} {x : RecordHandle}
    (h : (ofKey s key).Past (s.enter.register key) x) : c.Past s x := by
  have hsize := (Store.grows_enter_register s key).members.size
  have htypes := (Store.grows_enter_register s key).types.size
  cases x with
  | member h' =>
    refine .inr ?_
    have hle : s.members.size ≤ (ofKey s key).members := by cases key <;> simp [ofKey]
    rcases h with ⟨h, -⟩ | h <;> omega
  | type h' =>
    refine .inr ?_
    have hle : s.types.size ≤ (ofKey s key).types := by cases key <;> simp [ofKey]
    rcases h with ⟨h, -⟩ | h <;> omega
  | unit h' =>
    have hdepth : (s.enter.register key).depth = s.depth + 1 := Store.depth_register
    exact absurd (hdepth.symm.trans h.2) (Nat.succ_ne_zero _)

/-- The record that a registration makes is new. -/
theorem past_next (c : Scope) {s : Store} {key : Key} (hunit : ∀ i, key = .unit i → s.depth = 0) :
    c.Past s (key.next s) := by
  cases key with
  | member k => exact .inr (Nat.le_refl _)
  | type k => exact .inr (Nat.le_refl _)
  | unit i => exact ⟨Nat.le_refl _, hunit i rfl⟩

end Scope

/-! ## 2. Changes -/

/-- Some type record has worked it out. -/
def Store.Known (s : Store) (memo : Memo) : Prop := ∃ x, (s.type x).Knows memo

/-- **A type record that works nothing out**: it knows nothing but what a record of the store does. -/
def Store.Unforced (s : Store) (r : TypeExpr) : Prop := ∀ memo, r.Knows memo → s.Known memo

/-- **What a member may come to override**: the record of a symbol, and when it has its level. -/
def Store.MayLink (s : Store) (h : MemberHandle) (r : Member) : Prop :=
  ∀ l, r.overrides = some l → (s.member h).overrides = some l ∨
    (r.modifiers.access ≠ [] ∧ ∃ t, s.IsMember (some t) l)

/-- What is no link may be written freely. -/
theorem Store.mayLink_of_overrides {s : Store} {h : MemberHandle} {r : Member}
    (hr : r.overrides = (s.member h).overrides) : s.MayLink h r :=
  fun _ hl => .inl (hr.symm.trans hl)

/-- **One write of a filling.**  A view is a new record that a registered one is copied onto, under the
    same symbol.  A member gets its level and its side at once, and before there is a member after it; a
    member of its own that it comes to list is listed by no other.  No filling works out an expansion or
    branches. -/
inductive Change (cx : Context) (c : Scope) (s : Store) : Store → Prop where
  | member (h : MemberHandle) (r : Member) : c.OwnsMember s h → r.Refers s.toModel →
      (r.standing = (s.member h).standing ∨ (h.index + 1 = s.members.size ∧ cx.facts.Described r)) →
      c.MayList s h r → s.MayLink h r → Change cx c s (s.setMember h r)
  | type (h : TypeHandle) (r : TypeExpr) : c.OwnsType s h → r.Refers s.toModel → s.Unforced r →
      Change cx c s (s.setType h r)
  | unit (h : UnitHandle) (r : UnitRecord) : c.OwnsUnit s h → r.Refers s.toModel →
      Change cx c s (s.setUnit h r)
  | newMember : Change cx c s (s.addMember none)
  | newType : Change cx c s (s.addType none)
  | view (source : MemberHandle) (adjust : Adjust) (k : Option SymbolId) : 0 < s.depth →
      s.members.find? k = some source.index → adjust.Refers s.toModel →
      (∀ symbol, adjust ≠ .withRaw symbol) →
      Change cx c s ((s.addMember none).copied ⟨source, ⟨s.members.size⟩, adjust⟩)
  | complete (x : RecordHandle) : c.Loose s x → s.Done cx s.members.size s.filled x →
      Change cx c s (s.completed x)

theorem Change.grows {cx : Context} {c : Scope} {s s' : Store} (h : Change cx c s s') :
    s.Grows s' := by
  cases h with
  | member h r => exact Store.grows_setMember s h r
  | type h r => exact Store.grows_setType s h r
  | unit h r => exact Store.grows_setUnit s h r
  | newMember => exact Store.grows_addMember s none
  | newType => exact Store.grows_addType s none
  | view source adjust k =>
    refine ⟨?_, .refl _, .refl _⟩
    rw [Store.members_copied]
    exact (Registry.grows_push s.members none {}).trans (Registry.grows_modify ..)
  | complete x => exact ⟨.refl _, .refl _, .refl _⟩

/-! ## 3. Runs -/

/-- **The end of a filling** that a request in `s` began: nothing more, or, for an alias, the copy of
    its target.  The target was there before, and then no view of the alias waits, or it was filled
    meanwhile. -/
inductive Finish (cx : Context) (s : Store) : Key → Store → Store → Prop where
  | asIs (key : Key) (s₁ : Store) : Finish cx s key s₁ s₁
  | aliased (symbol : SymbolId) (source : MemberHandle) (s₁ : Store) :
      cx.facts.aliasedSymbol symbol ≠ symbol →
      s₁.members.find? (some (cx.facts.aliasedSymbol symbol)) = some source.index →
      ((∀ p ∈ s₁.pending, p.source.index ≠ s.members.size) ∨ s.members.size < source.index) →
      Finish cx s (.member (some symbol)) s₁
        (s₁.copied ⟨source, ⟨s.members.size⟩, .withRaw symbol⟩)

/-- **What a build does**: writes in its scope and fillings of keys that had no record, nested no
    deeper than the bound, up to a result (`none`) or a fault.  A unit is filled by no other filling.  The
    call stack ends at the bound, or on a walk along base types that does not fit. -/
inductive Trace (cx : Context) : Nat → Scope → Store → Option Fault → Store → Prop where
  | done {n : Nat} {c : Scope} {s : Store} : Trace cx n c s none s
  | fault {n : Nat} {c : Scope} {s : Store} (f : Fault) :
      (f = .endless → ¬ cx.WalksFit) → Trace cx n c s (some f) s
  | change {n : Nat} {c : Scope} {s s₁ s₂ : Store} {o : Option Fault} :
      Change cx c s s₁ → Trace cx n c s₁ o s₂ → Trace cx n c s o s₂
  | cut {c : Scope} {s : Store} (key : Key) : key.position? s = none → key.Declared cx.facts →
      Trace cx 0 c s (some .endless) (s.enter.register key).leave
  | fail {n : Nat} {c : Scope} {s s₁ : Store} (key : Key) (f : Fault) : key.position? s = none →
      key.Declared cx.facts →
      Trace cx n (Scope.ofKey s key) (s.enter.register key) (some f) s₁ →
      Trace cx (n + 1) c s (some f) s₁.leave
  | fill {n : Nat} {c : Scope} {s s₁ s₂ s₃ : Store} {o : Option Fault} (key : Key) :
      key.position? s = none → key.Declared cx.facts → (∀ i, key = .unit i → s.depth = 0) →
      Trace cx n (Scope.ofKey s key) (s.enter.register key) none s₁ → Finish cx s key s₁ s₂ →
      s₂.Done cx s₂.members.size s₂.filled (key.next s) →
      Trace cx (n + 1) c (s₂.leave.completed (key.next s)) o s₃ → Trace cx (n + 1) c s o s₃

/-- What one run leaves another goes on with. -/
theorem Trace.append {cx : Context} {n : Nat} {c : Scope} {s s' s'' : Store} {o : Option Fault}
    (h : Trace cx n c s none s') (h' : Trace cx n c s' o s'') : Trace cx n c s o s'' := by
  generalize hnone : (none : Option Fault) = none' at h
  induction h with
  | done => exact h'
  | fault => exact nomatch hnone
  | change hc _ ih => exact .change hc (ih h' hnone)
  | cut => exact nomatch hnone
  | fail => exact nomatch hnone
  | fill key hfind hdecl hunit hinner hend hdone _ _ ih =>
    exact .fill key hfind hdecl hunit hinner hend hdone (ih h' hnone)

/-! ## 4. What a run leaves alone -/

/-- A list of copies with more at its end, all of them onto positions from `n` on. -/
def Appended (n : Nat) (l l' : List Copy) : Prop :=
  ∃ new, l' = l ++ new ∧ ∀ d ∈ new, n ≤ d.target.index

theorem Appended.refl (n : Nat) (l : List Copy) : Appended n l l :=
  ⟨[], (List.append_nil l).symm, fun _ h => absurd h List.not_mem_nil⟩

theorem Appended.one {n : Nat} {l : List Copy} {d : Copy} (h : n ≤ d.target.index) :
    Appended n l (l ++ [d]) := by
  refine ⟨[d], rfl, fun e he => ?_⟩
  rw [List.mem_singleton.1 he]
  exact h

theorem Appended.trans {n n' : Nat} {l l' l'' : List Copy} (hn : n ≤ n') (h : Appended n l l')
    (h' : Appended n' l' l'') : Appended n l l'' := by
  obtain ⟨a, rfl, ha⟩ := h
  obtain ⟨b, rfl, hb⟩ := h'
  refine ⟨a ++ b, List.append_assoc .., fun d hd => ?_⟩
  rcases List.mem_append.1 hd with hd | hd
  · exact ha d hd
  · exact Nat.le_trans hn (hb d hd)

/-- More records are filled, none of which a key of the store before leads to. -/
def Filling (c : Scope) (s : Store) (l : List RecordHandle) : Prop :=
  ∃ new, l = new ++ s.filled ∧ ∀ x ∈ new, c.Past s x

theorem Filling.refl (c : Scope) (s : Store) : Filling c s s.filled :=
  ⟨[], rfl, fun _ h => absurd h List.not_mem_nil⟩

theorem Filling.one {c : Scope} {s : Store} {l : List RecordHandle} (h : Filling c s l)
    {x : RecordHandle} (hx : c.Past s x) : Filling c s (x :: l) := by
  obtain ⟨new, rfl, hnew⟩ := h
  refine ⟨x :: new, rfl, fun y hy => ?_⟩
  rcases List.mem_cons.1 hy with rfl | hy
  · exact hx
  · exact hnew y hy

theorem Scope.Past.of_grows {c : Scope} {s s' : Store} (hg : s.Grows s') (hd : s'.depth = s.depth)
    {x : RecordHandle} (h : c.Past s' x) : c.Past s x := by
  cases x with
  | member y =>
    by_cases hy : s.HasMember y
    · refine h.imp (fun hnew => ⟨hnew.1, ?_⟩) (Nat.le_trans hg.members.size)
      exact (hg.members.keyAt _ hy).symm.trans hnew.2
    · exact .inr (Nat.not_lt.1 hy)
  | type y =>
    by_cases hy : s.HasType y
    · refine h.imp (fun hnew => ⟨hnew.1, ?_⟩) (Nat.le_trans hg.types.size)
      exact (hg.types.keyAt _ hy).symm.trans hnew.2
    · exact .inr (Nat.not_lt.1 hy)
  | unit y => exact ⟨Nat.le_trans hg.units.size h.1, hd ▸ h.2⟩

theorem Filling.trans {c : Scope} {s s' : Store} {l : List RecordHandle} (hg : s.Grows s')
    (hd : s'.depth = s.depth) (h : Filling c s s'.filled) (h' : Filling c s' l) : Filling c s l := by
  obtain ⟨a, ha, hpast⟩ := h
  obtain ⟨b, rfl, hpast'⟩ := h'
  rw [ha]
  refine ⟨b ++ a, (List.append_assoc ..).symm, fun x hx => ?_⟩
  rcases List.mem_append.1 hx with hx | hx
  · exact (hpast' x hx).of_grows hg hd
  · exact hpast x hx

/-- **What a run keeps**: keys, the depth, every record that it does not own, the standing of a member
    once there is another after it, and what was copied and filled before; new copies are made onto new
    records. -/
structure Kept (c : Scope) (s s' : Store) : Prop where
  grows : s.Grows s'
  depth : s'.depth = s.depth
  member : ∀ h, s.HasMember h → ¬ c.OwnsMember s h → s'.member h = s.member h
  standing : ∀ h : MemberHandle, h.index + 1 < s.members.size →
    (s'.member h).standing = (s.member h).standing
  type : ∀ h, s.HasType h → ¬ c.OwnsType s h → s'.type h = s.type h
  unit : ∀ h, s.HasUnit h → ¬ c.OwnsUnit s h → s'.unit h = s.unit h
  copies : Appended s.members.size s.copies s'.copies
  pending : Appended s.members.size s.pending s'.pending
  filled : Filling c s s'.filled

namespace Kept

variable {cx : Context} {c : Scope} {s s' s'' : Store}

theorem refl (c : Scope) (s : Store) : Kept c s s where
  grows := .refl s
  depth := rfl
  member := fun _ _ _ => rfl
  standing := fun _ _ => rfl
  type := fun _ _ _ => rfl
  unit := fun _ _ _ => rfl
  copies := .refl _ _
  pending := .refl _ _
  filled := .refl _ _

theorem mem_filled (h : Kept c s s') {x : RecordHandle} (hx : x ∈ s.filled) : x ∈ s'.filled := by
  obtain ⟨new, hnew, -⟩ := h.filled
  rw [hnew]
  exact List.mem_append_right _ hx

/-- A record that was there is owned later only if it was owned. -/
theorem not_ownsMember (h : Kept c s s') {x : MemberHandle} (hx : s.HasMember x)
    (hn : ¬ c.OwnsMember s x) : ¬ c.OwnsMember s' x := by
  rintro ⟨hd, hopen, hown⟩
  rw [h.grows.members.keyAt _ hx] at hown
  exact hn ⟨h.depth ▸ hd, fun hf => hopen (h.mem_filled hf), hown⟩

theorem not_ownsType (h : Kept c s s') {x : TypeHandle} (hx : s.HasType x)
    (hn : ¬ c.OwnsType s x) : ¬ c.OwnsType s' x := by
  rintro ⟨hopen, hown⟩
  rw [h.grows.types.keyAt _ hx] at hown
  exact hn ⟨fun hf => hopen (h.mem_filled hf), hown⟩

theorem not_ownsUnit (h : Kept c s s') {x : UnitHandle} (hn : ¬ c.OwnsUnit s x) : ¬ c.OwnsUnit s' x :=
  fun hx => hn ⟨fun hf => hx.1 (h.mem_filled hf), hx.2⟩

theorem trans (h : Kept c s s') (h' : Kept c s' s'') : Kept c s s'' where
  grows := h.grows.trans h'.grows
  depth := h'.depth.trans h.depth
  member := by
    intro x hx hn
    rw [h'.member x (hx.mono h.grows.extends) (h.not_ownsMember hx hn)]
    exact h.member x hx hn
  standing := by
    intro x hx
    rw [h'.standing x (Nat.lt_of_lt_of_le hx h.grows.members.size)]
    exact h.standing x hx
  type := by
    intro x hx hn
    rw [h'.type x (hx.mono h.grows.extends) (h.not_ownsType hx hn)]
    exact h.type x hx hn
  unit := by
    intro x hx hn
    rw [h'.unit x (Nat.lt_of_lt_of_le hx h.grows.units.size) (h.not_ownsUnit hn)]
    exact h.unit x hx hn
  copies := h.copies.trans h.grows.members.size h'.copies
  pending := h.pending.trans h.grows.members.size h'.pending
  filled := h.filled.trans h.grows h.depth h'.filled

/-- One more record is filled. -/
theorem completed (h : Kept c s s') {x : RecordHandle} (hx : c.Past s x) :
    Kept c s (s'.completed x) :=
  { h with
    grows := ⟨h.grows.members, h.grows.types, h.grows.units⟩
    filled := h.filled.one hx }

theorem of_change (h : Change cx c s s') : Kept c s s' := by
  have hg := h.grows
  -- what is written belongs to the scope and what is made is new, so the rest stays
  cases h with
  | member h r hown hr hstanding hlists =>
    have hother : ∀ x, x ≠ h → (s.setMember h r).member x = s.member x :=
      fun x hne => Registry.recordAt_modify_ne _ _ (MemberHandle.index_ne hne)
    refine { refl c s with grows := hg, member := fun x hx hn => ?_, standing := fun x hx => ?_ }
    · exact hother x fun e => hn (e ▸ hown)
    · by_cases he : x = h
      · subst he
        rcases hstanding with hsame | ⟨hlast, -⟩
        · rw [Store.member_setMember_self (Nat.lt_of_succ_lt hx)]
          exact hsame
        · omega
      · rw [hother x he]
  | type h r hown =>
    refine { refl c s with grows := hg, type := fun x hx hn => ?_ }
    have hne : x ≠ h := fun e => hn (e ▸ hown)
    exact Registry.recordAt_modify_ne _ _ (TypeHandle.index_ne hne)
  | unit h r hown =>
    refine { refl c s with grows := hg, unit := fun x hx hn => ?_ }
    have hne : x ≠ h := fun e => hn (e ▸ hown)
    exact Registry.recordAt_modify_ne _ _ (UnitHandle.index_ne hne)
  | newMember =>
    have hold : ∀ x, s.HasMember x → (s.addMember none).member x = s.member x :=
      fun x hx => (Registry.recordAt_push ..).trans (if_neg (Nat.ne_of_lt hx))
    refine { refl c s with grows := hg, member := fun x hx _ => hold x hx, standing := fun x hx => ?_ }
    rw [hold x (Nat.lt_of_succ_lt hx)]
  | newType =>
    refine { refl c s with grows := hg, type := fun x hx _ => ?_ }
    exact (Registry.recordAt_push ..).trans (if_neg (Nat.ne_of_lt hx))
  | view source adjust k hd hk ha =>
    have hold : ∀ x, s.HasMember x →
        ((s.addMember none).copied ⟨source, ⟨s.members.size⟩, adjust⟩).member x = s.member x := by
      intro x hx
      refine (Registry.recordAt_modify_ne _ _ (Nat.ne_of_lt hx)).trans ?_
      exact (Registry.recordAt_push ..).trans (if_neg (Nat.ne_of_lt hx))
    refine { refl c s with
      grows := hg, member := fun x hx _ => hold x hx, standing := fun x hx => ?_
      copies := ?_, pending := ?_ }
    · rw [hold x (Nat.lt_of_succ_lt hx)]
    · exact .one (Nat.le_refl _)
    · exact .one (Nat.le_refl _)
  | complete x hloose _ => exact (refl c s).completed hloose.past

/-- A record that the filling does not reach is filled only if it was before. -/
theorem filled_before (hk : Kept c s s') {x : RecordHandle} (hx : ¬ c.Past s x) (hf : x ∈ s'.filled) :
    x ∈ s.filled := by
  obtain ⟨new, hnew, hpast⟩ := hk.filled
  rw [hnew] at hf
  exact (List.mem_append.1 hf).resolve_left fun hin => hx (hpast x hin)

end Kept

/-- The scope of a filling goes on to fit. -/
theorem Scope.Fits.mono {c : Scope} {s s' : Store} (h : c.Fits s) (hk : Kept c s s') : c.Fits s' := by
  refine ⟨fun x hx => ?_, ?_, fun x hx => ?_, fun x hx => ?_, ?_, ?_⟩
  · obtain ⟨hin, hlt, hopen⟩ := h.member x hx
    exact ⟨hin.mono hk.grows.extends, hlt, fun hf => hopen (hk.filled_before (h.not_past_member hx) hf)⟩
  · rw [hk.depth]
    exact h.inside
  · obtain ⟨hin, hlt, hopen⟩ := h.type x hx
    exact ⟨hin.mono hk.grows.extends, hlt, fun hf => hopen (hk.filled_before (h.not_past_type hx) hf)⟩
  · obtain ⟨hin, hopen⟩ := h.unit x hx
    have hpast : ¬ c.Past s (.unit x) := fun hpast => Nat.not_lt.2 hpast.1 hin
    exact ⟨Nat.lt_of_lt_of_le hin hk.grows.units.size, fun hf => hopen (hk.filled_before hpast hf)⟩
  · exact Nat.le_trans h.members hk.grows.members.size
  · exact Nat.le_trans h.types hk.grows.types.size

/-! ## 5. Nested fillings -/

section Nested

variable {cx : Context} {c : Scope} {s s' s'' : Store} {key : Key}

namespace Finish

theorem grows (h : Finish cx s key s' s'') : s'.Grows s'' := by
  cases h with
  | asIs => exact .refl _
  | aliased symbol source =>
    refine ⟨?_, .refl _, .refl _⟩
    rw [Store.members_copied]
    exact Registry.grows_modify ..

theorem depth (h : Finish cx s key s' s'') : s''.depth = s'.depth := by cases h <;> rfl

theorem types (h : Finish cx s key s' s'') : s''.types = s'.types := by cases h <;> rfl

theorem units (h : Finish cx s key s' s'') : s''.units = s'.units := by cases h <;> rfl

theorem filled (h : Finish cx s key s' s'') : s''.filled = s'.filled := by cases h <;> rfl

/-- Only the record of the filling is written. -/
theorem member (h : Finish cx s key s' s'') {x : MemberHandle} (hx : x.index ≠ s.members.size) :
    s''.member x = s'.member x := by
  cases h with
  | asIs => rfl
  | aliased symbol source => exact Registry.recordAt_modify_ne _ _ hx

theorem copies (h : Finish cx s key s' s'') : Appended s.members.size s'.copies s''.copies := by
  cases h with
  | asIs => exact .refl _ _
  | aliased symbol source => exact .one (Nat.le_refl _)

theorem pending (h : Finish cx s key s' s'') : Appended s.members.size s'.pending s''.pending := by
  cases h with
  | asIs => exact .refl _ _
  | aliased symbol source => exact .one (Nat.le_refl _)

end Finish

/-- The copies that wait at the end of a filling are those that waited before, and copies onto new
    records. -/
theorem Kept.pending_finish (hk : Kept (Scope.ofKey s key) (s.enter.register key) s')
    (hf : Finish cx s key s' s'') : Appended s.members.size s.pending s''.pending := by
  have hinner := hk.pending
  rw [Store.pending_register] at hinner
  have hsize : s.members.size ≤ (s.enter.register key).members.size :=
    (Store.grows_register s.enter key).members.size
  exact (Appended.trans hsize (.refl _ _) hinner).trans (Nat.le_refl _) hf.pending

/-- The end of a request leaves the members that were there before it began. -/
theorem Kept.member_leave (hcalm : s.Calm)
    (hk : Kept (Scope.ofKey s key) (s.enter.register key) s') (hf : Finish cx s key s' s'')
    {h : MemberHandle} (hh : s.HasMember h) : s''.leave.member h = s''.member h := by
  have hdepth : s''.depth = s.depth + 1 := by rw [hf.depth, hk.depth, Store.depth_register]; rfl
  by_cases hd : 1 < s''.depth
  · rw [Store.leave_inner hd]
  · refine Store.member_leave fun d hdp => ?_
    obtain ⟨new, hnew, htarget⟩ := hk.pending_finish hf
    rw [hcalm (by omega), List.nil_append] at hnew
    have hle := htarget d (hnew ▸ hdp)
    rintro rfl
    exact absurd hh (Nat.not_lt.2 hle)

/-- **A nested filling keeps what its request found**, whoever asked. -/
theorem Kept.of_filling (hcalm : s.Calm)
    (hk : Kept (Scope.ofKey s key) (s.enter.register key) s') (hf : Finish cx s key s' s'') :
    Kept c s s''.leave := by
  have hreg := Store.grows_enter_register s key
  have hdepth : s''.depth = s.depth + 1 := by rw [hf.depth, hk.depth, Store.depth_register]; rfl
  have hpending := hk.pending_finish hf
  -- a filling owns only what it made, and what was there is none of it
  have hmember : ∀ h, s.HasMember h → s''.leave.member h = s.member h := by
    intro h hh
    rw [Kept.member_leave hcalm hk hf hh, hf.member (Nat.ne_of_lt hh),
      hk.member h (hh.mono hreg.extends) (Scope.not_ownsMember_ofKey hh)]
    exact Store.member_register (s := s.enter) hh
  refine ⟨?_, ?_, fun h hh _ => hmember h hh, fun h hh => ?_, ?_, ?_, ?_, ?_, ?_⟩
  · exact ((hreg.trans hk.grows).trans hf.grows).trans (Store.grows_leave s'')
  · rw [Store.depth_leave, hdepth]
    rfl
  · rw [hmember h (Nat.lt_of_succ_lt hh)]
  · intro h hh _
    show s''.leave.types.recordAt _ = _
    rw [Store.types_leave, hf.types]
    exact (hk.type h (hh.mono hreg.extends) (Scope.not_ownsType_ofKey hh)).trans
      (Store.type_register (s := s.enter) hh)
  · intro h hh _
    show s''.leave.units.recordAt _ = _
    rw [Store.units_leave, hf.units]
    exact (hk.unit h (Nat.lt_of_lt_of_le hh hreg.units.size) (Scope.not_ownsUnit_ofKey hh)).trans
      (Store.unit_register (s := s.enter) hh)
  · have hcopies := hk.copies
    rw [Store.copies_register] at hcopies
    rw [Store.copies_leave]
    exact ((Appended.refl _ _).trans hreg.members.size hcopies).trans (Nat.le_refl _) hf.copies
  -- copies wait for the end of the outermost request, and none waited before it
  · by_cases hd : 1 < s''.depth
    · rw [Store.leave_inner hd]
      exact hpending
    · rw [Store.leave_last (Nat.not_lt.1 hd), hcalm (by omega)]
      exact .refl _ _
  · obtain ⟨new, hnew, hpast⟩ := hk.filled
    rw [Store.filled_register] at hnew
    rw [Store.filled_leave, hf.filled]
    exact ⟨new, hnew, fun x hx => Scope.past_of_ofKey (hpast x hx)⟩

/-- So does one that ends in a fault. -/
theorem Kept.of_fault (cx : Context) (hcalm : s.Calm)
    (hk : Kept (Scope.ofKey s key) (s.enter.register key) s') : Kept c s s'.leave :=
  .of_filling hcalm hk (Finish.asIs key s' : Finish cx s key s' s')

/-- So does one whose record is then filled. -/
theorem Kept.of_filled (hcalm : s.Calm) (hunit : ∀ i, key = .unit i → s.depth = 0)
    (hk : Kept (Scope.ofKey s key) (s.enter.register key) s') (hf : Finish cx s key s' s'') :
    Kept c s (s''.leave.completed (key.next s)) :=
  (of_filling hcalm hk hf).completed (Scope.past_next c hunit)

end Nested

/-- A view is made inside a request only, so a write outside leaves the queue empty. -/
theorem Change.calm {cx : Context} {c : Scope} {s s' : Store} (h : Change cx c s s') (hs : s.Calm) :
    s'.Calm := by
  intro hd
  have hd' : s.depth = 0 := (Kept.of_change h).depth ▸ hd
  cases h with
  | view source adjust k hpos => exact absurd hd' (Nat.ne_of_gt hpos)
  | _ => exact hs hd'

/-- The log of filled records is no part of the queue. -/
theorem Store.Calm.completed {s : Store} (h : s.Calm) (x : RecordHandle) : (s.completed x).Calm := h

/-- **A run keeps what it does not own**, and leaves no copy waiting between requests. -/
theorem Trace.kept {cx : Context} {n : Nat} {c : Scope} {s s' : Store} {o : Option Fault}
    (h : Trace cx n c s o s') (hcalm : s.Calm) : Kept c s s' ∧ s'.Calm := by
  induction h with
  | done => exact ⟨.refl _ _, hcalm⟩
  | fault => exact ⟨.refl _ _, hcalm⟩
  | @change n c s s₁ s₂ o hc _ ih =>
    obtain ⟨hrest, hend⟩ := ih (hc.calm hcalm)
    exact ⟨(Kept.of_change hc).trans hrest, hend⟩
  | cut key => exact ⟨.of_fault cx hcalm (.refl _ _), Store.calm_leave _⟩
  | fail key f _ _ _ ih =>
    exact ⟨.of_fault cx hcalm (ih (Store.calm_register _ key)).1, Store.calm_leave _⟩
  | fill key _ _ hunit _ hend _ _ ih ihrest =>
    have hk := (ih (Store.calm_register _ key)).1
    obtain ⟨hrest, hcalm'⟩ := ihrest ((Store.calm_leave _).completed _)
    exact ⟨(Kept.of_filled hcalm hunit hk hend).trans hrest, hcalm'⟩

/-! ## 6. On first use -/

theorem TypeExpr.not_knows_blank (memo : Memo) : ¬ ({} : TypeExpr).Knows memo := by
  cases memo <;> exact fun h => nomatch h

/-- What knows something is a record. -/
theorem Store.hasType_of_knows {s : Store} {x : TypeHandle} {memo : Memo} (h : (s.type x).Knows memo) :
    s.HasType x := by
  by_contra hout
  have hempty : s.type x = {} := Registry.recordAt_of_size_le (Nat.not_lt.1 hout)
  exact TypeExpr.not_knows_blank memo (hempty ▸ h)

/-- An empty record knows nothing. -/
theorem Store.known_addType {s : Store} {k : Option (Option TypeRef)} {memo : Memo}
    (h : (s.addType k).Known memo) : s.Known memo := by
  obtain ⟨x, hx⟩ := h
  have hadded : (s.addType k).type x = if x.index = s.types.size then {} else s.type x :=
    Registry.recordAt_push ..
  rw [hadded] at hx
  split at hx
  · exact absurd hx (TypeExpr.not_knows_blank memo)
  · exact ⟨x, hx⟩

theorem Store.known_register {s : Store} {key : Key} {memo : Memo}
    (h : (s.enter.register key).Known memo) : s.Known memo := by
  cases key with
  | member k => exact h
  | type k => exact (Store.known_addType h : s.enter.Known memo)
  | unit i => exact h

/-- The same type records know the same. -/
theorem Store.Known.of_types {s s' : Store} {memo : Memo} (h : s'.Known memo)
    (htypes : s'.types = s.types) : s.Known memo := by
  obtain ⟨x, hx⟩ := h
  refine ⟨x, ?_⟩
  show (s.types.recordAt x.index).Knows memo
  rw [← htypes]
  exact hx

/-- No write works anything out. -/
theorem Change.known {cx : Context} {c : Scope} {s s' : Store} (h : Change cx c s s') {memo : Memo}
    (hmemo : s'.Known memo) : s.Known memo := by
  cases h with
  | type h r hown hr hforced =>
    obtain ⟨x, hx⟩ := hmemo
    by_cases he : x = h
    · subst he
      have hin : s.HasType x := by
        have hin' := Store.hasType_of_knows hx
        unfold Model.HasType at hin' ⊢
        rwa [Store.types_setType, Registry.size_modify] at hin'
      rw [Store.type_setType_self hin] at hx
      exact hforced memo hx
    · rw [Store.type_setType_ne he] at hx
      exact ⟨x, hx⟩
  | newType => exact Store.known_addType hmemo
  | _ => exact hmemo

/-- **No run works anything out**: what a type record knows was known before the run. -/
theorem Trace.known {cx : Context} {n : Nat} {c : Scope} {s s' : Store} {o : Option Fault}
    (h : Trace cx n c s o s') {memo : Memo} (hmemo : s'.Known memo) : s.Known memo := by
  induction h with
  | done => exact hmemo
  | fault => exact hmemo
  | change hc _ ih => exact hc.known (ih hmemo)
  | cut key => exact Store.known_register (hmemo.of_types Store.types_leave)
  | fail key f _ _ _ ih => exact Store.known_register (ih (hmemo.of_types Store.types_leave))
  | @fill n c s s₁ s₂ s₃ o key _ _ _ _ hend _ _ ih ihrest =>
    have htypes : (s₂.leave.completed (key.next s)).types = s₁.types :=
      Store.types_leave.trans hend.types
    exact Store.known_register (ih ((ihrest hmemo).of_types htypes))

end ApiReference
