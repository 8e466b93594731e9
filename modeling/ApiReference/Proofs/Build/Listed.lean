/-
  The lists of members.

  Only its own filling writes what a member lists: a new record lists nothing, and a copy is made onto
  another record.  A filling lists registered members and members that it made itself, so what one made
  for its list no other ever lists.

  1. `Store.Spared`      -- what new records and copies leave alone;
  2. `Store.ListsKept`   -- what a run adds to the lists of members;
  3. `Trace.listsKept`;
  4. `Store.Apart`       -- no member without a key is in two lists.
-/
import ApiReference.Proofs.Build.Sound

namespace ApiReference

/-! ## 1. Members that are left alone -/

/-- **A later store whose members are as they were**, but for new ones, which are blank, and for those
    that something was copied onto. -/
structure Store.Spared (s s' : Store) : Prop where
  grows : s.Grows s'
  copies : ∀ p ∈ s.copies, p ∈ s'.copies
  member : ∀ x, s'.Original x → s'.member x = s.member x ∨ (¬ s.HasMember x ∧ s'.member x = {})

namespace Store.Spared

variable {cx : Context} {s s' s'' : Store} {key : Key}

theorem original_of (h : s.Spared s') {x : MemberHandle} (hx : s'.Original x) : s.Original x :=
  fun p hp => hx p (h.copies p hp)

theorem trans (h : s.Spared s') (h' : s'.Spared s'') : s.Spared s'' where
  grows := h.grows.trans h'.grows
  copies := fun p hp => h'.copies p (h.copies p hp)
  member := by
    intro x hx
    rcases h'.member x hx with hsame | ⟨hout, hblank⟩
    · rw [hsame]
      exact h.member x (h'.original_of hx)
    · exact .inr ⟨fun hin => hout (hin.mono h.grows.extends), hblank⟩

/-- Where the members are the same, all are left alone. -/
theorem of_eq (hg : s.Grows s') (hmembers : s'.members = s.members) (hcopies : s'.copies = s.copies) :
    s.Spared s' where
  grows := hg
  copies := fun _ hp => hcopies ▸ hp
  member := by
    intro x _
    refine .inl ?_
    show s'.members.recordAt x.index = s.members.recordAt x.index
    rw [hmembers]

theorem addMember (s : Store) (k : Option (Option SymbolId)) : s.Spared (s.addMember k) where
  grows := ⟨Registry.grows_push .., .refl _, .refl _⟩
  copies := fun _ hp => hp
  member := by
    intro x _
    show (s.members.push k {}).recordAt x.index = _ ∨ _ ∧ (s.members.push k {}).recordAt x.index = _
    rw [Registry.recordAt_push]
    split
    · rename_i he
      exact .inr ⟨fun hin => Nat.ne_of_lt hin he, rfl⟩
    · exact .inl rfl

theorem copied (s : Store) (d : Copy) : s.Spared (s.copied d) where
  grows := by
    refine ⟨?_, .refl _, .refl _⟩
    rw [members_copied]
    exact Registry.grows_modify ..
  copies := fun _ hp => List.mem_append_left _ hp
  member := by
    intro x hx
    have hne : x ≠ d.target := (hx d (List.mem_append_right _ List.mem_cons_self)).symm
    exact .inl (Registry.recordAt_modify_ne _ _ (MemberHandle.index_ne hne))

/-- The beginning of a filling. -/
theorem register (s : Store) (key : Key) : s.Spared (s.enter.register key) := by
  have hg := Store.grows_enter_register s key
  cases key with
  | member k => exact { addMember s.enter (some k) with grows := hg }
  | type k => exact .of_eq hg rfl rfl
  | unit i => exact .of_eq hg rfl rfl

/-- The end of a request makes copies again. -/
theorem leave (hs : s.Sound) : s.Spared s.leave where
  grows := grows_leave s
  copies := fun p hp => copies_leave (s := s) ▸ hp
  member := by
    intro x hx
    refine .inl (member_leave fun d hd => hx d ?_)
    rw [copies_leave]
    exact hs.pending d hd

/-- The end of a filling. -/
theorem finish (h : Finish cx s key s' s'') : s'.Spared s'' := by
  cases h with
  | asIs => exact .of_eq (.refl _) rfl rfl
  | aliased symbol source => exact copied s' _

theorem completed (s : Store) (x : RecordHandle) : s.Spared (s.completed x) :=
  .of_eq ⟨.refl _, .refl _, .refl _⟩ rfl rfl

/-- A member that nobody listed is in no list of a member that is left alone. -/
theorem unlisted (h : s.Spared s') {v : MemberHandle} (hv : s.Unlisted v) : s'.Unlisted v := by
  intro x hx hlisted
  rcases h.member x hx with hsame | ⟨-, hblank⟩
  · exact hv x (h.original_of hx) (hsame ▸ hlisted)
  · rw [hblank] at hlisted
    exact absurd hlisted List.not_mem_nil

/-- **A filling of another record**, what it did inside apart. -/
theorem filling (hf : Finish cx s key s' s'') (hs : s''.Sound) (x : RecordHandle) :
    s'.Spared (s''.leave.completed x) :=
  ((finish hf).trans (leave hs)).trans (completed _ x)

end Store.Spared

/-- Nobody lists a member that is not there. -/
theorem Store.Sound.unlisted {s : Store} (hs : s.Sound) {v : MemberHandle} (hv : ¬ s.HasMember v) :
    s.Unlisted v := by
  intro x _ hlisted
  unfold Member.Lists at hlisted
  cases hmembers : (s.member x).members with
  | none =>
    rw [hmembers] at hlisted
    exact absurd hlisted List.not_mem_nil
  | some vs =>
    rw [hmembers] at hlisted
    exact hv ((hs.member x).members vs hmembers (some v) hlisted v rfl)

/-! ## 2. What a run adds to lists -/

/-- **What a run adds to the lists of members**: registered members, and members without a key from a
    position on, each to one list. -/
structure Store.ListsKept (n : Nat) (s s' : Store) : Prop where
  copies : ∀ p ∈ s.copies, p ∈ s'.copies
  lists : ∀ x v, s'.Original x → (s'.member x).Lists v → s'.members.keyAt v.index = none →
    (s.member x).Lists v ∨
      (n ≤ v.index ∧ ∀ y, s'.Original y → (s'.member y).Lists v → y = x)

namespace Store.ListsKept

variable {n n' : Nat} {s s' s'' : Store}

theorem refl (n : Nat) (s : Store) : s.ListsKept n s := ⟨fun _ hp => hp, fun _ _ _ hv _ => .inl hv⟩

theorem le (h : s.ListsKept n' s') (hn : n ≤ n') : s.ListsKept n s' where
  copies := h.copies
  lists := fun x v hx hv hkey => (h.lists x v hx hv hkey).imp id fun hnew =>
    ⟨Nat.le_trans hn hnew.1, hnew.2⟩

theorem original_of (h : s.ListsKept n s') {x : MemberHandle} (hx : s'.Original x) : s.Original x :=
  fun p hp => hx p (h.copies p hp)

theorem trans (h : s.ListsKept n s') (hg : s'.Grows s'') (h' : s'.ListsKept n s'') :
    s.ListsKept n s'' where
  copies := fun p hp => h'.copies p (h.copies p hp)
  lists := by
    intro x v hx hv hkey
    rcases h'.lists x v hx hv hkey with hold | hnew
    · refine (h.lists x v (h'.original_of hx) hold (hg.keyAt_eq_none hkey)).imp id fun hnew => ?_
      refine ⟨hnew.1, fun y hy hlisted => ?_⟩
      rcases h'.lists y v hy hlisted hkey with hlisted' | ⟨-, honly⟩
      · exact hnew.2 y (h'.original_of hy) hlisted'
      · exact (honly x hx hv).symm
    · exact .inr hnew

/-- New records list nothing, and copies are made onto other records. -/
theorem of_spared (h : s.Spared s') : s.ListsKept n s' where
  copies := h.copies
  lists := by
    intro x v hx hv _
    rcases h.member x hx with hsame | ⟨-, hblank⟩
    · exact .inl (hsame ▸ hv)
    · rw [hblank] at hv
      exact absurd hv List.not_mem_nil

theorem setMember {c : Scope} {h : MemberHandle} {r : Member} (hlists : c.MayList s h r) :
    s.ListsKept c.members (s.setMember h r) where
  copies := fun _ hp => hp
  lists := by
    intro x v hx hv hkey
    have hg := grows_setMember s h r
    by_cases he : x = h
    · subst he
      by_cases hin : s.HasMember x
      · rw [member_setMember_self hin] at hv
        rcases hlists v hv with hold | hkeyed | ⟨hn, hunlisted⟩
        · exact .inl hold
        · exact absurd (hg.keyAt_eq_none hkey) hkeyed
        · refine .inr ⟨hn, fun y hy hlisted => ?_⟩
          by_contra hne
          rw [member_setMember_ne hne] at hlisted
          exact hunlisted y hy hlisted
      · have hempty : (s.setMember x r).member x = default := by
          refine Registry.recordAt_of_size_le ?_
          rw [members_setMember, Registry.size_modify]
          exact Nat.not_lt.1 hin
        rw [hempty] at hv
        exact absurd hv List.not_mem_nil
    · rw [member_setMember_ne he] at hv
      exact .inl hv

theorem of_change {cx : Context} {c : Scope} (h : Change cx c s s') : s.ListsKept c.members s' := by
  have hg := h.grows
  cases h with
  | member h r _ _ _ hlists => exact setMember hlists
  | newMember => exact of_spared (.addMember s none)
  | view source adjust k => exact of_spared ((Spared.addMember s none).trans (.copied _ _))
  | _ => exact of_spared (.of_eq hg rfl rfl)

/-- **A member that nobody listed is listed by nobody still**, if it was made before. -/
theorem unlisted (h : s.ListsKept n s') (hg : s.Grows s') {v : MemberHandle} (hin : s.HasMember v)
    (hn : v.index < n) (hkey : s.members.keyAt v.index = none) (hv : s.Unlisted v) :
    s'.Unlisted v := by
  intro x hx hlisted
  rcases h.lists x v hx hlisted ((hg.members.keyAt _ hin).trans hkey) with hold | ⟨hle, -⟩
  · exact hv x (h.original_of hx) hold
  · exact absurd hn (Nat.not_lt.2 hle)

end Store.ListsKept

/-! ## 3. Runs -/

/-- A filling owns new members only. -/
theorem Scope.members_ofKey (s : Store) (key : Key) :
    s.members.size ≤ (Scope.ofKey s key).members ∧
      (Scope.ofKey s key).members ≤ (s.enter.register key).members.size := by
  cases key with
  | member k => exact ⟨Nat.le_succ _, Nat.le_of_eq (Registry.size_push ..).symm⟩
  | type k => exact ⟨Nat.le_refl _, Nat.le_refl _⟩
  | unit i => exact ⟨Nat.le_refl _, Nat.le_refl _⟩

/-- **A nested filling** adds nothing else to lists than what it makes. -/
theorem Store.ListsKept.nested {n : Nat} {s s₁ s₂ : Store} {key : Key} (hn : n ≤ s.members.size)
    (hinner : (s.enter.register key).ListsKept (Scope.ofKey s key).members s₁)
    (hg : (s.enter.register key).Grows s₁) (hend : s₁.Spared s₂) : s.ListsKept n s₂ := by
  have hle := Nat.le_trans hn (Scope.members_ofKey s key).1
  have hbegin : s.ListsKept n (s.enter.register key) := .of_spared (.register s key)
  exact (hbegin.trans hg (hinner.le hle)).trans hend.grows (.of_spared hend)

/-- **What a run makes for one list no other ever lists.** -/
theorem Trace.listsKept {cx : Context} {n : Nat} {c : Scope} {s s' : Store} {o : Option Fault}
    (h : Trace cx n c s o s') (hs : s.Sound) (hc : c.members ≤ s.members.size) :
    s.ListsKept c.members s' := by
  induction h with
  | done => exact .refl _ _
  | fault => exact .refl _ _
  | change hchange hrest ih =>
    have hsound := hs.change hchange
    have hle := Nat.le_trans hc hchange.grows.members.size
    exact (Store.ListsKept.of_change hchange).trans (hrest.kept hsound.calm).1.grows (ih hsound hle)
  | cut key hkey =>
    exact .of_spared ((Store.Spared.register _ key).trans (.leave (hs.register hkey)))
  | fail key f hkey _ hrun ih =>
    have hsound := hs.register hkey
    have hinner := ih hsound (Scope.members_ofKey _ key).2
    exact .nested hc hinner (hrun.kept hsound.calm).1.grows (.leave (hrun.sound hsound))
  | @fill n c s s₁ s₂ s₃ o key hkey _ _ hrun hend _ hrest ih ihrest =>
    have hsound := hs.register hkey
    have hk := (hrun.kept hsound.calm).1
    have hsound₁ := hrun.sound hsound
    have hsound₂ := hsound₁.filling hk hend
    have hspared : s₁.Spared (s₂.leave.completed (key.next s)) :=
      .filling hend (hsound₁.finish hk hend) _
    have hg := ((Store.grows_enter_register s key).trans hk.grows).trans hspared.grows
    -- what the filling listed, then what the rest of the run does
    have hfilled : s.ListsKept c.members (s₂.leave.completed (key.next s)) :=
      .nested hc (ih hsound (Scope.members_ofKey s key).2) hk.grows hspared
    exact hfilled.trans (hrest.kept hsound₂.calm).1.grows
      (ihrest hsound₂ (Nat.le_trans hc hg.members.size))

/-! ## 4. Lists of different members -/

/-- **No two members list the same member without a key**; copies apart, which show what their source
    does. -/
def Store.Apart (s : Store) : Prop :=
  ∀ x y v, s.Original x → s.Original y → (s.member x).Lists v → (s.member y).Lists v →
    s.members.keyAt v.index = none → x = y

theorem Store.apart_empty : ({} : Store).Apart :=
  fun _ _ _ _ _ hx => absurd hx List.not_mem_nil

theorem Store.Apart.kept {n : Nat} {s s' : Store} (h : s.Apart) (hg : s.Grows s')
    (hlists : s.ListsKept n s') : s'.Apart := by
  intro x y v hx hy hxv hyv hkey
  rcases hlists.lists x v hx hxv hkey with holdx | ⟨-, honly⟩
  · rcases hlists.lists y v hy hyv hkey with holdy | ⟨-, honly⟩
    · exact h x y v (hlists.original_of hx) (hlists.original_of hy) holdx holdy (hg.keyAt_eq_none hkey)
    · exact honly x hx hxv
  · exact (honly y hy hyv).symm

theorem Store.Apart.spared {s s' : Store} (h : s.Apart) (hspared : s.Spared s') : s'.Apart :=
  h.kept hspared.grows (.of_spared (n := 0) hspared)

end ApiReference
