/-
  Sound stores.

  Whatever a build does, no key gets a second record, every record refers to records that exist, and
  every copy that was asked for lies between records that exist.  These hold in the middle of a build
  too, where records are half filled.  In a sound store what is filled stays as it is.

  1. `Store.Sound`;
  2. one write keeps it, and so do the beginning and the end of a request;
  3. `Trace.sound`       -- so does a run;
     `Trace.invariant`   -- with what else every step keeps;
  4. `Scope.settled`, `Kept.upholds` -- what a run upholds of filled records.
-/
import ApiReference.Proofs.Build.Trace

namespace ApiReference

/-! ## 1. Soundness -/

/-- **A store in which every handle leads somewhere.** -/
structure Store.Sound (s : Store) : Prop where
  memberKeys : s.members.KeysDistinct
  typeKeys : s.types.KeysDistinct
  unitKeys : s.units.KeysDistinct
  member : ∀ h, (s.member h).Refers s.toModel
  type : ∀ h, (s.type h).Refers s.toModel
  unit : ∀ h, (s.unit h).Refers s.toModel
  copies : ∀ p ∈ s.copies, s.HasMember p.source ∧ s.HasMember p.target ∧ p.adjust.Refers s.toModel
  pending : ∀ p ∈ s.pending, p ∈ s.copies
  filled : ∀ x ∈ s.filled, s.Has x
  calm : s.Calm

theorem Adjust.Refers.mono {m m' : Model} {a : Adjust} (ha : a.Refers m) (he : m.Extends m') :
    a.Refers m' := by
  cases a with
  | asStatic parent id => exact Model.HasMember.mono ha he
  | asInherited base id => exact Model.HasMember.mono ha he
  | withRaw symbol => trivial

namespace Store.Sound

variable {cx : Context} {c : Scope} {s s' s'' : Store} {key : Key}

theorem empty : ({} : Store).Sound where
  memberKeys := fun _ _ h => nomatch h
  typeKeys := fun _ _ h => nomatch h
  unitKeys := fun _ _ h => nomatch h
  member := fun _ => Member.refers_empty
  type := fun _ => TypeExpr.refers_empty
  unit := fun _ => UnitRecord.refers_empty
  copies := fun _ h => absurd h List.not_mem_nil
  pending := fun _ h => absurd h List.not_mem_nil
  filled := fun _ h => absurd h List.not_mem_nil
  calm := fun _ => rfl

theorem filledMembers (hs : s.Sound) (h : MemberHandle) (hh : .member h ∈ s.filled) : s.HasMember h :=
  hs.filled _ hh

theorem filledTypes (hs : s.Sound) (h : TypeHandle) (hh : .type h ∈ s.filled) : s.HasType h :=
  hs.filled _ hh

/-- The copies of a sound store are fine in any store with more records. -/
theorem copies_mono (hs : s.Sound) (he : s.toModel.Extends s'.toModel) : ∀ p ∈ s.copies,
    s'.HasMember p.source ∧ s'.HasMember p.target ∧ p.adjust.Refers s'.toModel :=
  fun p hp => ⟨(hs.copies p hp).1.mono he, (hs.copies p hp).2.1.mono he,
    (hs.copies p hp).2.2.mono he⟩

/-! ## 2. One step -/

theorem setMember (hs : s.Sound) {h : MemberHandle} {r : Member} (hr : r.Refers s.toModel) :
    (s.setMember h r).Sound := by
  have he : s.toModel.Extends (s.setMember h r).toModel :=
    ⟨Nat.le_of_eq (Registry.size_modify ..).symm, Nat.le_refl _⟩
  exact { hs with
    memberKeys := hs.memberKeys.modify h.index _
    member := fun x => Registry.recordAt_write (P := Member.Refers _)
      (fun i => (hs.member ⟨i⟩).mono he) (hr.mono he) h.index x.index
    type := fun x => (hs.type x).mono he
    unit := fun x => (hs.unit x).mono he
    copies := hs.copies_mono he
    filled := fun x hx => (Store.grows_setMember s h r).has (hs.filled x hx) }

theorem setType (hs : s.Sound) {h : TypeHandle} {r : TypeExpr} (hr : r.Refers s.toModel) :
    (s.setType h r).Sound := by
  have he : s.toModel.Extends (s.setType h r).toModel :=
    ⟨Nat.le_refl _, Nat.le_of_eq (Registry.size_modify ..).symm⟩
  exact { hs with
    typeKeys := hs.typeKeys.modify h.index _
    member := fun x => (hs.member x).mono he
    type := fun x => Registry.recordAt_write (P := TypeExpr.Refers _)
      (fun i => (hs.type ⟨i⟩).mono he) (hr.mono he) h.index x.index
    unit := fun x => (hs.unit x).mono he
    copies := hs.copies_mono he
    filled := fun x hx => (Store.grows_setType s h r).has (hs.filled x hx) }

theorem setUnit (hs : s.Sound) {h : UnitHandle} {r : UnitRecord} (hr : r.Refers s.toModel) :
    (s.setUnit h r).Sound := by
  have he : s.toModel.Extends (s.setUnit h r).toModel := ⟨Nat.le_refl _, Nat.le_refl _⟩
  exact { hs with
    unitKeys := hs.unitKeys.modify h.index _
    member := fun x => (hs.member x).mono he
    type := fun x => (hs.type x).mono he
    unit := fun x => Registry.recordAt_write (P := UnitRecord.Refers _)
      (fun i => (hs.unit ⟨i⟩).mono he) (hr.mono he) h.index x.index
    copies := hs.copies_mono he
    filled := fun x hx => (Store.grows_setUnit s h r).has (hs.filled x hx) }

/-- A new member record; where it has a key, the key had none. -/
theorem addMember (hs : s.Sound) {k : Option (Option SymbolId)}
    (hk : (s.members.push k {}).KeysDistinct) : (s.addMember k).Sound := by
  have he : s.toModel.Extends (s.addMember k).toModel :=
    ⟨(Registry.grows_push ..).size, Nat.le_refl _⟩
  exact { hs with
    memberKeys := hk
    member := fun x => Registry.recordAt_add (P := Member.Refers _)
      (fun i => (hs.member ⟨i⟩).mono he) Member.refers_empty k x.index
    type := fun x => (hs.type x).mono he
    unit := fun x => (hs.unit x).mono he
    copies := hs.copies_mono he
    filled := fun x hx => (Store.grows_addMember s k).has (hs.filled x hx) }

theorem addType (hs : s.Sound) {k : Option (Option TypeRef)}
    (hk : (s.types.push k {}).KeysDistinct) : (s.addType k).Sound := by
  have he : s.toModel.Extends (s.addType k).toModel :=
    ⟨Nat.le_refl _, (Registry.grows_push ..).size⟩
  exact { hs with
    typeKeys := hk
    member := fun x => (hs.member x).mono he
    type := fun x => Registry.recordAt_add (P := TypeExpr.Refers _)
      (fun i => (hs.type ⟨i⟩).mono he) TypeExpr.refers_empty k x.index
    unit := fun x => (hs.unit x).mono he
    copies := hs.copies_mono he
    filled := fun x hx => (Store.grows_addType s k).has (hs.filled x hx) }

theorem addUnit (hs : s.Sound) {i : Nat} (hk : (s.units.push (some i) {}).KeysDistinct) :
    (s.addUnit i).Sound := by
  have he : s.toModel.Extends (s.addUnit i).toModel := ⟨Nat.le_refl _, Nat.le_refl _⟩
  exact { hs with
    unitKeys := hk
    member := fun x => (hs.member x).mono he
    type := fun x => (hs.type x).mono he
    unit := fun x => Registry.recordAt_add (P := UnitRecord.Refers _)
      (fun j => (hs.unit ⟨j⟩).mono he) UnitRecord.refers_empty (some i) x.index
    copies := hs.copies_mono he
    filled := fun x hx => (Store.grows_addUnit s i).has (hs.filled x hx) }

/-- A record that is there is filled. -/
theorem completed (hs : s.Sound) {x : RecordHandle} (hx : s.Has x) : (s.completed x).Sound :=
  { hs with filled := fun y hy => (List.mem_cons.1 hy).elim (fun e => e ▸ hx) (hs.filled y) }

/-- A copy between records that are there, inside a request. -/
theorem copied (hs : s.Sound) {d : Copy} (hd : 0 < s.depth) (hsource : s.HasMember d.source)
    (htarget : s.HasMember d.target) (hadjust : d.adjust.Refers s.toModel) : (s.copied d).Sound := by
  have hw := hs.setMember (h := d.target) (hadjust.apply (hs.member d.source))
  have he : s.toModel.Extends (s.copied d).toModel :=
    ⟨Nat.le_of_eq (Registry.size_modify ..).symm, Nat.le_refl _⟩
  refine { hw with copies := fun p hp => ?_, pending := fun p hp => ?_, calm := fun h => ?_ }
  · rcases List.mem_append.1 hp with hp | hp
    · exact hs.copies_mono he p hp
    · rw [List.mem_singleton.1 hp]
      exact ⟨hsource.mono he, htarget.mono he, hadjust.mono he⟩
  · rcases List.mem_append.1 hp with hp | hp
    · exact List.mem_append_left _ (hs.pending p hp)
    · exact List.mem_append_right _ hp
  · exact absurd h (Nat.ne_of_gt hd)

/-- The copies made again keep every member's references. -/
theorem member_foldl_runCopy {m : Model} {l : List Copy} (hl : ∀ d ∈ l, d.adjust.Refers m) {s : Store}
    (hs : ∀ h, (s.member h).Refers m) (h : MemberHandle) :
    ((l.foldl Store.runCopy s).member h).Refers m := by
  induction l generalizing s with
  | nil => exact hs h
  | cons d l ih =>
    rw [List.foldl_cons]
    refine ih (fun e he => hl e (List.mem_cons_of_mem d he)) fun x => ?_
    exact Registry.recordAt_write (P := Member.Refers m) (fun i => hs ⟨i⟩)
      ((hl d List.mem_cons_self).apply (hs d.source)) d.target.index x.index

theorem memberKeys_foldl_runCopy (l : List Copy) {s : Store} (hs : s.members.KeysDistinct) :
    (l.foldl Store.runCopy s).members.KeysDistinct := by
  induction l generalizing s with
  | nil => exact hs
  | cons d l ih =>
    rw [List.foldl_cons]
    exact ih (hs.modify d.target.index _)

/-- The end of a request. -/
theorem leave (hs : s.Sound) : s.leave.Sound := by
  have hsize : s.leave.members.size = s.members.size := Store.size_members_leave
  have he : s.toModel.Extends s.leave.toModel := (Store.grows_leave s).extends
  -- an inner request only ends; the outermost one makes all waiting copies again
  by_cases h : 1 < s.depth
  · rw [Store.leave_inner h]
    refine { hs with calm := fun hd => ?_ }
    have hd' : s.depth - 1 = 0 := hd
    omega
  · have hcalm := Store.calm_leave s
    have hcopies := hs.copies_mono he
    have hgrows := Store.grows_leave s
    rw [Store.leave_last (Nat.not_lt.1 h)] at he hcalm hcopies hgrows ⊢
    have hadjust : ∀ d ∈ s.pending, d.adjust.Refers s.toModel :=
      fun d hd => (hs.copies d (hs.pending d hd)).2.2
    exact {
      memberKeys := memberKeys_foldl_runCopy s.pending hs.memberKeys
      typeKeys := hs.typeKeys
      unitKeys := hs.unitKeys
      member := fun x => (member_foldl_runCopy hadjust hs.member x).mono he
      type := fun x => (hs.type x).mono he
      unit := fun x => (hs.unit x).mono he
      copies := hcopies
      pending := fun _ hp => absurd hp List.not_mem_nil
      filled := fun x hx => hgrows.has (hs.filled x hx)
      calm := hcalm }

/-- A loose record is filled. -/
theorem complete (hs : s.Sound) {x : RecordHandle} (hx : c.Loose s x) : (s.completed x).Sound := by
  refine hs.completed ?_
  cases x with
  | member h => exact hx.1
  | type h => exact hx.1
  | unit h => exact hx.elim

theorem change (hs : s.Sound) (h : Change cx c s s') : s'.Sound := by
  cases h with
  | member h r _ hr => exact hs.setMember hr
  | type h r _ hr => exact hs.setType hr
  | unit h r _ hr => exact hs.setUnit hr
  | newMember => exact hs.addMember (hs.memberKeys.push_none _)
  | newType => exact hs.addType (hs.typeKeys.push_none _)
  | view source adjust k hd hk ha =>
    have hnew := hs.addMember (hs.memberKeys.push_none {})
    have he : s.toModel.Extends (s.addMember none).toModel :=
      ⟨(Registry.grows_push ..).size, Nat.le_refl _⟩
    have hsource : s.HasMember source := Registry.lt_size_of_find? hk
    refine hnew.copied hd (hsource.mono he) ?_ (ha.mono he)
    exact Nat.lt_of_lt_of_eq (Nat.lt_succ_self _) (Registry.size_push ..).symm
  | complete x hx _ => exact hs.complete hx

/-- The beginning of a filling. -/
theorem register (hs : s.Sound) (hkey : key.position? s = none) : (s.enter.register key).Sound := by
  have henter : s.enter.Sound :=
    { hs with calm := fun h => absurd h (Nat.succ_ne_zero s.depth) }
  cases key with
  | member k => exact henter.addMember (hs.memberKeys.push_some hkey _)
  | type k => exact henter.addType (hs.typeKeys.push_some hkey _)
  | unit i => exact henter.addUnit (hs.unitKeys.push_some hkey _)

/-- The end of a filling: the target of an alias is there, and so is the record filled. -/
theorem finish (hs : s'.Sound) (hk : Kept (Scope.ofKey s key) (s.enter.register key) s')
    (hf : Finish cx s key s' s'') : s''.Sound := by
  have hd : 0 < s'.depth := by
    rw [hk.depth, Store.depth_register]
    exact Nat.succ_pos _
  cases hf with
  | asIs => exact hs
  | aliased symbol source _ _ hfind _ =>
    refine hs.copied hd (Registry.lt_size_of_find? hfind) ?_ trivial
    refine Nat.lt_of_lt_of_le ?_ hk.grows.members.size
    exact Nat.lt_of_lt_of_eq (Nat.lt_succ_self _) (Registry.size_push ..).symm

/-- The record of a filling that is over. -/
theorem next (hs : s'.Sound) (hg : (s.enter.register key).Grows s') :
    (s'.completed (key.next s)).Sound := by
  refine hs.completed (hg.has ?_)
  cases key <;> exact Nat.lt_of_lt_of_eq (Nat.lt_succ_self _) (Registry.size_push ..).symm

/-- After a filling. -/
theorem filling (hs : s'.Sound) (hk : Kept (Scope.ofKey s key) (s.enter.register key) s')
    (hf : Finish cx s key s' s'') : (s''.leave.completed (key.next s)).Sound :=
  (hs.finish hk hf).leave.next ((hk.grows.trans hf.grows).trans (Store.grows_leave s''))

end Store.Sound

/-! ## 3. Runs -/

/-- **A run keeps the store sound.** -/
theorem Trace.sound {cx : Context} {n : Nat} {c : Scope} {s s' : Store} {o : Option Fault}
    (h : Trace cx n c s o s') (hs : s.Sound) : s'.Sound := by
  induction h with
  | done => exact hs
  | fault => exact hs
  | change hc _ ih => exact ih (hs.change hc)
  | cut key hkey => exact (hs.register hkey).leave
  | fail key f hkey _ _ ih => exact (ih (hs.register hkey)).leave
  | @fill n c s s₁ s₂ s₃ o key hkey _ _ hrun hend _ _ ih ihrest =>
    have hk := (hrun.kept (Store.calm_register _ key)).1
    exact ihrest ((ih (hs.register hkey)).filling hk hend)

/-- **A property that every step keeps**: writes, the beginning and the end of a filling and of a request.
    What is registered is declared.  The record of a filling was registered for a key that had none, and
    stays registered for it. -/
structure Store.Invariant (cx : Context) (P : Store → Prop) : Prop where
  change : ∀ {c : Scope} {s s' : Store}, s.Sound → P s → Change cx c s s' → P s'
  register : ∀ {s : Store} {key : Key}, s.Sound → key.Declared cx.facts → P s → P (s.enter.register key)
  finish : ∀ {s s' s'' : Store} {key : Key}, s'.Sound → key.position? s = none →
    (s.enter.register key).Grows s' → P s' → Finish cx s key s' s'' → P s''
  leave : ∀ {s : Store}, s.Sound → P s → P s.leave
  completed : ∀ {s : Store} (x : RecordHandle), P s → P (s.completed x)

/-- **Such a property holds after a run.** -/
theorem Trace.invariant {cx : Context} {n : Nat} {c : Scope} {s s' : Store} {o : Option Fault}
    {P : Store → Prop} (h : Trace cx n c s o s') (hP : Store.Invariant cx P) (hs : s.Sound) (hp : P s) :
    P s' := by
  induction h with
  | done => exact hp
  | fault => exact hp
  | change hc _ ih => exact ih (hs.change hc) (hP.change hs hp hc)
  | cut key hkey hdecl => exact hP.leave (hs.register hkey) (hP.register hs hdecl hp)
  | fail key f hkey hdecl hrun ih =>
    have hsound := hs.register hkey
    exact hP.leave (hrun.sound hsound) (ih hsound (hP.register hs hdecl hp))
  | @fill n c s s₁ s₂ s₃ o key hkey hdecl _ hrun hend _ _ ih ihrest =>
    have hsound := hs.register hkey
    have hk := (hrun.kept (Store.calm_register _ key)).1
    have hsound₁ := hrun.sound hsound
    have hended : P s₂ := hP.finish hsound₁ hkey hk.grows (ih hsound (hP.register hs hdecl hp)) hend
    refine ihrest (hsound₁.filling hk hend) ?_
    exact hP.completed _ (hP.leave (hsound₁.finish hk hend) hended)

/-! ## 4. What is filled -/

/-- **How many members are settled** in the scope of a filling: all, but for the one that is filled as
    long as it is the last. -/
def Scope.settled (c : Scope) (s : Store) : Nat :=
  match c.member with
  | none => s.members.size
  | some h => if h.index + 1 = s.members.size then h.index else s.members.size

section

variable {c : Scope} {s s' : Store}

theorem Scope.settled_le (c : Scope) (s : Store) : c.settled s ≤ s.members.size := by
  unfold settled
  split
  · exact Nat.le_refl _
  · split <;> omega

/-- Once there is a member after the one that is filled, all are settled. -/
theorem Scope.settled_eq (h : ∀ x, c.member = some x → x.index + 1 < s.members.size) :
    c.settled s = s.members.size := by
  unfold settled
  split
  · rfl
  · rename_i x hx
    exact if_neg (Nat.ne_of_lt (h x hx))

/-- All but the member that is filled are settled. -/
theorem Scope.lt_settled (c : Scope) {x : MemberHandle} (hx : s.HasMember x)
    (hne : c.member ≠ some x) : x.index < c.settled s := by
  have hlt : x.index < s.members.size := hx
  unfold settled
  split
  · exact hlt
  · rename_i h hh
    have hindex : x.index ≠ h.index := MemberHandle.index_ne fun e => hne (e ▸ hh)
    split <;> omega

theorem Scope.Fits.settled_mono (h : c.Fits s) (hle : s.members.size ≤ s'.members.size) :
    c.settled s ≤ c.settled s' := by
  unfold settled
  split
  · exact hle
  · rename_i x hx
    have hlt : x.index < s.members.size := (h.member x hx).1
    split <;> split <;> omega

/-- The standing of a registered member among the settled ones does not change. -/
theorem Kept.standing_settled (hk : Kept c s s') {x : MemberHandle} (hx : x.index < c.settled s)
    (hkey : s.members.keyAt x.index ≠ none) : (s'.member x).standing = (s.member x).standing := by
  have hin : s.HasMember x := Nat.lt_of_lt_of_le hx (c.settled_le s)
  by_cases hown : c.OwnsMember s x
  · obtain ⟨-, -, hm | ⟨-, hnone⟩⟩ := hown
    · refine hk.standing x ?_
      rw [Scope.settled, hm] at hx
      dsimp only at hx
      have hin' : x.index < s.members.size := hin
      split at hx <;> omega
    · exact absurd hnone hkey
  · rw [hk.member x hin hown]

/-- **A run upholds what is filled.** -/
theorem Kept.upholds (hk : Kept c s s') (hs : s.Sound) : Store.Upholds (c.settled s) s s' := by
  obtain ⟨copies, hcopies, htarget⟩ := hk.copies
  obtain ⟨new, hnew, -⟩ := hk.filled
  refine ⟨hk.grows, ⟨new, hnew.symm⟩, fun p hp => ?_, fun h hh horiginal p hp => ?_, fun h hh => ?_,
    fun h hh _ => ?_, fun h hh => ?_, fun h hh hkey _ => hk.standing_settled hh hkey⟩
  · rw [hcopies]
    exact List.mem_append_left _ hp
  · rw [hcopies] at hp
    rcases List.mem_append.1 hp with hp | hp
    · exact horiginal p hp
    · rintro rfl
      exact absurd (hs.filledMembers _ hh) (Nat.not_lt.2 (htarget p hp))
  · rw [hk.type h (hs.filledTypes h hh) fun hown => hown.1 hh]
  · exact hk.member h (hs.filledMembers h hh) fun hown => hown.2.1 hh
  · exact hk.unit h (hs.filled _ hh) fun hown => hown.1 hh

end

end ApiReference
