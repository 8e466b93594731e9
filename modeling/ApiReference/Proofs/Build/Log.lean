/-
  The log of filled records.

  The store lists the records whose filling came to its end, the last one first.  What holds of a record
  after those filled before it holds of every entry, and goes on to hold: what comes later writes no
  filled record, and copies only onto records that are no originals.

  1. `Upholds`          -- for the steps around a filling;
  2. `Store.Logged`     -- what was filled since some point is done;
  3. `Trace.logged`       -- a run logs only what is done;
  4. `Trace.registered`   -- a run that gives a result fills every record it registers;
  5. `Trace.declares`, `Trace.warnings` -- a run registers declared keys only, and skips nothing.
-/
import ApiReference.Proofs.Build.Logic

namespace ApiReference

variable {cx : Context} {c : Scope} {s s' s'' : Store} {key : Key} {x : RecordHandle}

/-! ## 1. The steps around a filling -/

namespace Store.Upholds

theorem refl (n : Nat) (s : Store) : Upholds n s s where
  grows := .refl s
  filled := List.suffix_rfl
  copies := fun _ h => h
  original := fun _ _ h => h
  type := fun _ _ => rfl
  member := fun _ _ _ => rfl
  unit := fun _ _ => rfl
  standing := fun _ _ _ _ => rfl

/-- One more record is filled. -/
theorem completed (n : Nat) (s : Store) (x : RecordHandle) : Upholds n s (s.completed x) :=
  { refl n s with grows := ⟨.refl _, .refl _, .refl _⟩, filled := List.suffix_cons x s.filled }

/-- A request ends: only copies are written. -/
theorem leave (n : Nat) (hs : s.Sound) : Upholds n s s.leave := by
  have hmember : ∀ h, s.Original h → s.leave.member h = s.member h :=
    fun h horiginal => member_leave fun d hd => horiginal d (hs.pending d hd)
  have horiginal : ∀ h, s.leave.Original h ↔ s.Original h := by
    intro h
    unfold Original
    rw [copies_leave]
  refine ⟨grows_leave s, ?_, fun p hp => ?_, fun h _ hh => (horiginal h).2 hh, fun h _ => ?_,
    fun h _ hh => hmember h hh, fun h _ => ?_, fun h _ _ hh => ?_⟩
  · exact filled_leave (s := s) ▸ List.suffix_rfl
  · rw [copies_leave]
    exact hp
  · show (s.leave.types.recordAt _).built = _
    rw [types_leave]
    rfl
  · show s.leave.units.recordAt _ = _
    rw [units_leave]
    rfl
  · rw [hmember h ((horiginal h).1 hh)]

/-- A filling ends: only its own record is copied onto, and that one is not filled. -/
theorem finish (n : Nat) (hf : Finish cx s key s' s'') (hfit : (Scope.ofKey s key).Fits s') :
    Upholds n s' s'' := by
  have hgrows := hf.grows
  cases hf with
  | asIs => exact refl n s'
  | aliased symbol source =>
    have hother : ∀ h : MemberHandle, h ≠ ⟨s.members.size⟩ → (s'.copied
        ⟨source, ⟨s.members.size⟩, .withRaw symbol⟩).member h = s'.member h :=
      fun h hne => Registry.recordAt_modify_ne _ _ (MemberHandle.index_ne hne)
    have hne : ∀ h, .member h ∈ s'.filled → h ≠ ⟨s.members.size⟩ :=
      fun h hh e => (hfit.member _ rfl).2.2 (e ▸ hh)
    refine ⟨hgrows, List.suffix_rfl, fun p hp => List.mem_append_left _ hp, fun h hh horiginal p hp => ?_,
      fun _ _ => rfl, fun h hh _ => hother h (hne h hh), fun _ _ => rfl, fun h _ _ horiginal => ?_⟩
    · rcases List.mem_append.1 hp with hp | hp
      · exact horiginal p hp
      · rw [List.mem_singleton.1 hp]
        exact (hne h hh).symm
    · rw [hother h fun e => horiginal _ (List.mem_append_right _ (List.mem_singleton.2 rfl)) e.symm]

end Store.Upholds

/-! ## 2. The log -/

/-- **What was filled since `base` is done**: each record, after those filled before it. -/
def Store.Logged (cx : Context) (base : List RecordHandle) (s : Store) : Prop :=
  ∀ x before, x :: before <:+ s.filled → base <:+ before → s.Done cx s.members.size before x

/-- The first record was filled before the second. -/
def Store.FilledBefore (s : Store) (x y : RecordHandle) : Prop :=
  ∃ before, y :: before <:+ s.filled ∧ x ∈ before

/-- What was filled before the last. -/
theorem Store.filledBefore_last {s : Store} {x y : RecordHandle} (hlast : s.filled.head? = some y)
    (hx : x ∈ s.filled.tail) : s.FilledBefore x y :=
  ⟨s.filled.tail, ⟨[], List.cons_head?_tail hlast⟩, hx⟩

namespace Store.Logged

variable {base : List RecordHandle}

/-- Where nothing was filled. -/
theorem of_eq (h : s.filled = base) : s.Logged cx base := by
  intro x before hx hbase
  have hlong := hx.length_le
  have hshort := hbase.length_le
  rw [h, List.length_cons] at hlong
  omega

/-- **The log in a later store** that keeps what is filled, with what was filled there. -/
theorem extend {n : Nat} (h : s.Logged cx base) (hs : s.Sound) (hu : Upholds n s s')
    (hle : n ≤ s'.members.size)
    (hn : ∀ y before, y :: before <:+ s.filled → base <:+ before → (∀ h, y ≠ .type h) →
      n = s.members.size)
    (h' : s'.Logged cx s.filled) : s'.Logged cx base := by
  intro x before hx hbase
  have hwhere : x :: before <:+ s.filled ∨ s.filled <:+ before := by
    rcases List.suffix_or_suffix_of_suffix hx hu.filled with hold | hafter
    · exact .inl hold
    · rcases List.suffix_cons_iff.1 hafter with he | hafter
      · exact .inl (he ▸ List.suffix_rfl)
      · exact .inr hafter
  -- what was logged first is still done; what came after is done by the later log
  rcases hwhere with hold | hafter
  · have hmem : x ∈ s.filled := hold.subset List.mem_cons_self
    have hdone := h x before hold hbase
    refine hu.done hle hs.filledMembers (fun y hy => hold.subset (List.mem_cons_of_mem x hy))
      (hs.filled x hmem) (fun hx => Nat.le_of_eq (hn x before hold hbase hx).symm) (hu.unwritten hmem) ?_
    cases x with
    | member y =>
      rw [hn _ before hold hbase fun _ => RecordHandle.noConfusion]
      exact hdone
    | type y => exact hdone
    | unit y => exact hdone
  · exact h' x before hx hafter

/-- The log in a later store in which nothing more is filled. -/
theorem upholds (h : s.Logged cx base) (hs : s.Sound) (hu : Upholds s.members.size s s')
    (hfilled : s'.filled = s.filled) : s'.Logged cx base :=
  h.extend hs hu hu.grows.members.size (fun _ _ _ _ _ => rfl) (.of_eq hfilled)

/-- **One more entry.** -/
theorem completed (h : s.Logged cx base) (hs : s.Sound) (hin : s.Has x)
    (hdone : s.Done cx s.members.size s.filled x) : (s.completed x).Logged cx base := by
  have hu := Upholds.completed s.members.size s x
  have hsame : ∀ y, s.Unwritten (s.completed x) y := by
    intro y
    cases y with
    | member _ => exact fun _ => rfl
    | type _ => rfl
    | unit _ => rfl
  intro y before hy hbase
  rcases List.suffix_cons_iff.1 hy with he | hy
  · cases he
    exact hu.done (Nat.le_refl _) hs.filledMembers (List.Subset.refl _) hin (fun _ => Nat.le_refl _)
      (hsame x) hdone
  · have hmem : y ∈ s.filled := hy.subset List.mem_cons_self
    exact hu.done (Nat.le_refl _) hs.filledMembers (fun z hz => hy.subset (List.mem_cons_of_mem y hz))
      (hs.filled y hmem) (fun _ => Nat.le_refl _) (hsame y) (h y before hy hbase)

end Store.Logged

/-- There is a member after the one that a scope fills once a member made since is filled. -/
theorem Scope.Past.settled {h : MemberHandle} (hpast : c.Past s (.member h)) (hfit : c.Fits s)
    (hin : s'.HasMember h) : c.settled s' = s'.members.size := by
  refine Scope.settled_eq fun y hy => ?_
  obtain ⟨hrange, hlt, -⟩ := hfit.member y hy
  have hrange' : y.index < s.members.size := hrange
  have hin' : h.index < s'.members.size := hin
  rcases hpast with ⟨hle, -⟩ | hle <;> omega

namespace Store.Logged

/-- **One part of the log after another.**  What was filled in the first part was made in it, so its
    members are settled when the second begins. -/
theorem append (h : s'.Logged cx s.filled) (hfit : c.Fits s) (hk : Kept c s s') (hs' : s'.Sound)
    (hk' : Kept c s' s'') (h' : s''.Logged cx s'.filled) : s''.Logged cx s.filled := by
  obtain ⟨new, hnew, hpast⟩ := hk.filled
  refine h.extend hs' (hk'.upholds hs')
    (Nat.le_trans (c.settled_le s') hk'.grows.members.size) (fun y before hy hbase htype => ?_) h'
  have hin : s'.Has y := hs'.filled y (hy.subset List.mem_cons_self)
  have hmem : y ∈ new := by
    obtain ⟨later, hlater⟩ := hy
    obtain ⟨between, rfl⟩ := hbase
    have hcut : (later ++ y :: between) ++ s.filled = new ++ s.filled := by
      rw [← hnew, ← hlater, List.append_assoc, List.cons_append]
    rw [← List.append_cancel_right hcut]
    exact List.mem_append_right _ List.mem_cons_self
  cases y with
  | member y => exact (hpast _ hmem).settled hfit hin
  | type y => exact absurd rfl (htype y)
  | unit y =>
    -- a unit is filled outside of requests, so no member is being filled
    refine Scope.settled_eq fun x hx => ?_
    exact absurd (hpast _ hmem).2 (Nat.ne_of_gt (hfit.depth hx))

end Store.Logged

/-! ## 3. Runs -/

theorem Change.logged (h : Change cx c s s') (hs : s.Sound) : s'.Logged cx s.filled := by
  cases h with
  | complete x hx hdone =>
    refine (Store.Logged.of_eq rfl).completed hs ?_ hdone
    cases x with
    | member y => exact hx.1
    | type y => exact hx.1
    | unit y => exact hx.elim
  | _ => exact .of_eq rfl

/-- **A run logs only what is done.** -/
theorem Trace.logged {n : Nat} {o : Option Fault} (h : Trace cx n c s o s') (hs : s.Sound)
    (hfit : c.Fits s) : s'.Logged cx s.filled := by
  induction h with
  | done => exact .of_eq rfl
  | fault => exact .of_eq rfl
  | change hc hrun ih =>
    have hk := Kept.of_change hc
    have hsound := hs.change hc
    exact (hc.logged hs).append hfit hk hsound (hrun.kept hsound.calm).1 (ih hsound (hfit.mono hk))
  | cut key => exact .of_eq (Store.filled_leave.trans Store.filled_register)
  | fail key f hkey _ hrun ih =>
    have hsound := hs.register hkey
    have hlogged := ih hsound (Scope.fits_ofKey hs key)
    rw [Store.filled_register] at hlogged
    have hsound₁ := hrun.sound hsound
    exact hlogged.upholds hsound₁ (.leave _ hsound₁) Store.filled_leave
  | @fill n c s s₁ s₂ s₃ o key hkey _ hunit hrun hend hdone hrest ih ihrest =>
    have hsound := hs.register hkey
    have hfit₁ := Scope.fits_ofKey hs key
    have hk := (hrun.kept (Store.calm_register s key)).1
    have hsound₁ := hrun.sound hsound
    have hsound₂ := hsound₁.finish hk hend
    have hsound₃ := hsound₁.filling hk hend
    -- what the filling logged, then its own record, then what follows
    have hinner : s₁.Logged cx s.filled := by
      have hlogged := ih hsound hfit₁
      rwa [Store.filled_register] at hlogged
    have hfinished := hinner.upholds hsound₁ (.finish _ hend (hfit₁.mono hk)) hend.filled
    have hnext := hsound₂.next (hk.grows.trans hend.grows)
    have hown := hfinished.completed hsound₂ (hnext.filled _ List.mem_cons_self) hdone
    have hleft := hown.upholds hnext (.leave _ hnext) Store.filled_leave
    rw [Store.leave_completed] at hleft
    have hout : Kept c s (s₂.leave.completed (key.next s)) := .of_filled hs.calm hunit hk hend
    exact hleft.append hfit hout hsound₃ (hrest.kept hsound₃.calm).1 (ihrest hsound₃ (hfit.mono hout))

/-! ## 4. What is registered -/

/-- A write registers no key. -/
theorem Change.position? (h : Change cx c s s') (k : Key) : k.position? s' = k.position? s := by
  cases h with
  | member h r => cases k <;> first | rfl | exact Registry.find?_modify ..
  | type h r => cases k <;> first | rfl | exact Registry.find?_modify ..
  | unit h r => cases k <;> first | rfl | exact Registry.find?_modify ..
  | newMember => cases k <;> first | rfl | exact Registry.find?_push_none ..
  | newType => cases k <;> first | rfl | exact Registry.find?_push_none ..
  | view source adjust =>
    cases k with
    | member k => exact (Registry.find?_modify ..).trans (Registry.find?_push_none ..)
    | type k => rfl
    | unit i => rfl
  | complete => rfl

theorem Finish.position? (h : Finish cx s key s' s'') (k : Key) :
    k.position? s'' = k.position? s' := by
  cases h with
  | asIs => rfl
  | aliased symbol source =>
    cases k with
    | member k => exact Registry.find?_modify ..
    | type k => rfl
    | unit i => rfl

theorem Key.position?_leave (k : Key) (s : Store) : k.position? s.leave = k.position? s := by
  cases k with
  | member k => exact (Store.grows_leave s).members.find?_eq Store.size_members_leave k
  | type k => exact congrArg (Registry.find? · k) Store.types_leave
  | unit i => exact congrArg (Registry.find? · i) Store.units_leave

/-- A registration registers its key. -/
theorem Key.position?_register {k : Key} {i : Nat}
    (h : k.position? (s.enter.register key) = some i) :
    k.position? s = some i ∨ k.recordAt i = key.next s := by
  cases key with
  | member a =>
    cases k with
    | member b => exact (Registry.find?_push_some h).imp id (congrArg (RecordHandle.member ⟨·⟩))
    | type b => exact .inl h
    | unit j => exact .inl h
  | type a =>
    cases k with
    | member b => exact .inl h
    | type b => exact (Registry.find?_push_some h).imp id (congrArg (RecordHandle.type ⟨·⟩))
    | unit j => exact .inl h
  | unit a =>
    cases k with
    | member b => exact .inl h
    | type b => exact .inl h
    | unit j => exact (Registry.find?_push_some h).imp id (congrArg (RecordHandle.unit ⟨·⟩))

/-- **A run that gives a result fills every record that it registers.** -/
theorem Trace.registered {n : Nat} {o : Option Fault} (h : Trace cx n c s o s') (ho : o = none) {k : Key}
    {i : Nat} (hk : k.position? s' = some i) :
    k.position? s = some i ∨ k.recordAt i ∈ s'.filled := by
  induction h with
  | done => exact .inl hk
  | fault => exact nomatch ho
  | change hc _ ih =>
    rw [← hc.position? k]
    exact ih ho hk
  | cut => exact nomatch ho
  | fail => exact nomatch ho
  | @fill n c s s₁ s₂ s₃ o key _ _ _ _ hend _ hrest ih ihrest =>
    -- what the filling completed stays so to the end
    have hkeep : ∀ x ∈ key.next s :: s₁.filled, x ∈ s₃.filled := by
      intro x hx
      refine (hrest.kept ((Store.calm_leave _).completed _)).1.mem_filled ?_
      show x ∈ key.next s :: s₂.leave.filled
      rw [Store.filled_leave, hend.filled]
      exact hx
    rcases ihrest ho hk with hafter | hfilled
    · have hinner : k.position? s₁ = some i := by
        rw [← hend.position? k, ← Key.position?_leave]
        exact hafter
      rcases ih rfl hinner with hregistered | hfilled
      · refine (Key.position?_register hregistered).imp id fun e => ?_
        rw [e]
        exact hkeep _ List.mem_cons_self
      · exact .inr (hkeep _ (List.mem_cons_of_mem _ hfilled))
    · exact .inr hfilled

/-- **A store with every registered record filled.** -/
def Store.Whole (s : Store) : Prop := ∀ (k : Key) i, k.position? s = some i → k.recordAt i ∈ s.filled

/-- **A run that gives a result** leaves no record unfilled. -/
theorem Trace.whole {n : Nat} (h : Trace cx n c s none s') (hcalm : s.Calm) (hs : s.Whole) : s'.Whole := by
  intro k i hk
  rcases h.registered rfl hk with hold | hnew
  · exact (h.kept hcalm).1.mem_filled (hs k i hold)
  · exact hnew

/-! ## 5. What is declared, and what is skipped -/

/-- **Every registered key is declared.** -/
def Store.Declares (f : Facts) (s : Store) : Prop := ∀ k : Key, k.position? s ≠ none → k.Declared f

theorem Store.declares_empty {f : Facts} : ({} : Store).Declares f := by
  intro k hk
  obtain ⟨i, hi⟩ := Option.ne_none_iff_exists'.1 hk
  cases k <;> exact absurd (Registry.lt_size_of_find? hi) (Nat.not_lt_zero i)

theorem Store.Declares.of_position? {f : Facts} (h : s.Declares f)
    (hk : ∀ k : Key, k.position? s' = k.position? s) : s'.Declares f := fun k hne => h k (hk k ▸ hne)

/-- A registration registers no other key. -/
theorem Key.position?_register_ne {k : Key} (hk : k ≠ key) :
    k.position? (s.enter.register key) = k.position? s := by
  cases key with
  | member a =>
    cases k with
    | member b => exact Registry.find?_push_ne (fun e => hk (congrArg _ (Option.some.inj e).symm)) _ _
    | type b => rfl
    | unit j => rfl
  | type a =>
    cases k with
    | member b => rfl
    | type b => exact Registry.find?_push_ne (fun e => hk (congrArg _ (Option.some.inj e).symm)) _ _
    | unit j => rfl
  | unit a =>
    cases k with
    | member b => rfl
    | type b => rfl
    | unit j => exact Registry.find?_push_ne (fun e => hk (congrArg _ (Option.some.inj e).symm)) _ _

theorem Store.Declares.invariant : Store.Invariant cx fun s => s.Declares cx.facts where
  change := fun _ hd hc => hd.of_position? hc.position?
  register := by
    intro s key _ hdecl hd k hk
    by_cases hkey : k = key
    · exact hkey ▸ hdecl
    · rw [Key.position?_register_ne hkey] at hk
      exact hd k hk
  finish := fun _ _ _ hd hend => hd.of_position? hend.position?
  leave := fun _ hd => hd.of_position? fun k => k.position?_leave _
  completed := fun _ hd => hd

/-- **A run registers declared keys only.** -/
theorem Trace.declares {n : Nat} {o : Option Fault} (h : Trace cx n c s o s') (hs : s.Sound)
    (hd : s.Declares cx.facts) : s'.Declares cx.facts :=
  h.invariant Store.Declares.invariant hs hd

theorem Store.warnings_leave (s : Store) : s.leave.warnings = s.warnings := by
  by_cases h : 1 < s.depth
  · rw [leave_inner h]
  · rw [leave_last (Nat.not_lt.1 h)]

theorem Store.warnings_register (s : Store) (key : Key) : (s.enter.register key).warnings = s.warnings := by
  cases key <;> rfl

theorem Store.invariant_warnings (texts : List String) : Store.Invariant cx fun s => s.warnings = texts where
  change := fun _ h hc => by
    rw [← h]
    cases hc <;> rfl
  register := fun _ _ h => (Store.warnings_register ..).trans h
  finish := fun _ _ _ h hend => by
    rw [← h]
    cases hend <;> rfl
  leave := fun _ h => (Store.warnings_leave _).trans h
  completed := fun _ h => h

/-- **A run skips nothing.** -/
theorem Trace.warnings {n : Nat} {o : Option Fault} (h : Trace cx n c s o s') (hs : s.Sound) :
    s'.warnings = s.warnings :=
  h.invariant (Store.invariant_warnings s.warnings) hs rfl

end ApiReference
