/-
  The sides of cached members, and where their links lead.

  A cached member gets its side with its level, in the write that describes it, and a link only after
  that, to a cached member.  A view may be static where its source is not, but it is cached for nothing;
  and what is copied onto a cached member is the target of an alias, which is cached as well.

  1. `Store.Placed`, `Store.Sided` -- what holds of a cached member, and of the copies that wait;
  2. one write, the beginning and the end of a request keep it;
  3. `Trace.sided`                 -- so does a run.
-/
import ApiReference.Proofs.Build.Logic
import ApiReference.Proofs.Facts.Statics

namespace ApiReference

/-! ## 1. Sides in a store -/

namespace Store

/-- The member has a key, so it is cached for it. -/
def Keyed (s : Store) (h : MemberHandle) : Prop := s.members.keyAt h.index ≠ none

/-- **A record on its side, linked after that**: a link leads to the record of a symbol, and a record
    that has one has its level. -/
structure Placed (f : Facts) (s : Store) (m : Member) : Prop where
  side : f.Sided m
  link : ∀ l, m.overrides = some l → m.modifiers.access ≠ [] ∧ ∃ t, s.IsMember (some t) l

/-- **A copy that moves no cached member to the other side**: onto one of these only another is copied,
    under another name. -/
def Unmoved (s : Store) (d : Copy) : Prop :=
  s.Keyed d.target → s.Keyed d.source ∧ ∃ symbol, d.adjust = .withRaw symbol

/-- **Every cached member is on its side**, and stays there when the waiting copies are made again. -/
structure Sided (f : Facts) (s : Store) : Prop where
  placed : ∀ h, s.Keyed h → s.Placed f (s.member h)
  pending : ∀ d ∈ s.pending, s.Unmoved d

variable {f : Facts} {s s' : Store}

theorem Keyed.hasMember {h : MemberHandle} (hh : s.Keyed h) : s.HasMember h := by
  by_contra hout
  exact hh (Registry.keyAt_of_size_le (Nat.not_lt.1 hout))

/-- The record of a symbol is cached. -/
theorem IsMember.keyed {k : Option SymbolId} {h : MemberHandle} (hh : s.IsMember k h) : s.Keyed h :=
  fun hnone => nomatch (Registry.keyAt_of_find? hh).symm.trans hnone

/-- Records keep their keys, and get none. -/
theorem Grows.keyed (hg : s.Grows s') {h : MemberHandle} (hh : s.HasMember h) : s'.Keyed h ↔ s.Keyed h := by
  unfold Keyed
  rw [hg.members.keyAt _ hh]

theorem Placed.mono {m : Member} (hm : s.Placed f m) (hg : s.members.Grows s'.members) :
    s'.Placed f m where
  side := hm.side
  link := by
    intro l hl
    obtain ⟨haccess, t, ht⟩ := hm.link l hl
    exact ⟨haccess, t, hg.find? _ _ ht⟩

theorem placed_empty : s.Placed f {} := ⟨Facts.sided_empty, nofun⟩

theorem Unmoved.mono {d : Copy} (hd : s.Unmoved d) (hg : s.Grows s') (hin : s.HasMember d.target) :
    s'.Unmoved d := by
  intro htarget
  obtain ⟨hsource, hadjust⟩ := hd ((hg.keyed hin).1 htarget)
  exact ⟨(hg.keyed hsource.hasMember).2 hsource, hadjust⟩

/-- The copies of a sound store wait on members that are there. -/
theorem Sound.hasTarget (hs : s.Sound) {d : Copy} (hd : d ∈ s.pending) : s.HasMember d.target :=
  (hs.copies d (hs.pending d hd)).2.1

namespace Sided

variable {cx : Context} {c : Scope} {key : Key}

theorem empty : ({} : Store).Sided f where
  placed := fun h hh => absurd hh.hasMember (Nat.not_lt_zero h.index)
  pending := fun _ hd => absurd hd List.not_mem_nil

/-! ## 2. One step -/

/-- Where no member is written, nothing changes. -/
theorem congr (hl : s.Sided f) (hmembers : s'.members = s.members)
    (hpending : ∀ d ∈ s'.pending, d ∈ s.pending ∨ s.Unmoved d) : s'.Sided f := by
  have hkeyed : ∀ h, s'.Keyed h ↔ s.Keyed h := fun h => by
    unfold Keyed
    rw [hmembers]
  refine ⟨fun h hh => ?_, fun d hd htarget => ?_⟩
  · have hsame : s'.member h = s.member h := congrArg (·.recordAt h.index) hmembers
    rw [hsame]
    exact (hl.placed h ((hkeyed h).1 hh)).mono (hmembers ▸ .refl _)
  · have hcopy := (hpending d hd).elim (hl.pending d) id
    obtain ⟨hsource, hadjust⟩ := hcopy ((hkeyed _).1 htarget)
    exact ⟨(hkeyed _).2 hsource, hadjust⟩

/-- A new record has nothing yet. -/
theorem addMember (hl : s.Sided f) (hs : s.Sound) (k : Option (Option SymbolId)) :
    (s.addMember k).Sided f := by
  have hg := grows_addMember s k
  refine ⟨fun h hh => ?_, fun d hd => (hl.pending d hd).mono hg (hs.hasTarget hd)⟩
  have hmember : (s.addMember k).member h = if h.index = s.members.size then {} else s.member h :=
    Registry.recordAt_push ..
  rw [hmember]
  split
  · exact placed_empty
  · rename_i hne
    have hin : s.HasMember h := Nat.lt_of_le_of_ne
      (Nat.le_of_lt_succ (Nat.lt_of_lt_of_eq hh.hasMember (Registry.size_push ..))) hne
    exact (hl.placed h ((hg.keyed hin).1 hh)).mono hg.members

/-- One record is written, which is on its side if it is cached. -/
theorem write (hl : s.Sided f) {h : MemberHandle} {r : Member} (hr : s.Keyed h → s.Placed f r) :
    (s.setMember h r).Sided f := by
  have hg := grows_setMember s h r
  have hkeyed : ∀ x, (s.setMember h r).Keyed x ↔ s.Keyed x := fun x => by
    unfold Keyed
    rw [members_setMember, Registry.keyAt_modify]
  refine ⟨fun x hx => ?_, fun d hd htarget => ?_⟩
  · have hx' := (hkeyed x).1 hx
    by_cases he : x = h
    · subst he
      rw [member_setMember_self hx'.hasMember]
      exact (hr hx').mono hg.members
    · rw [member_setMember_ne he]
      exact (hl.placed x hx').mono hg.members
  · obtain ⟨hsource, hadjust⟩ := hl.pending d hd ((hkeyed _).1 htarget)
    exact ⟨(hkeyed _).2 hsource, hadjust⟩

/-- A record is written in its standing, or described; a link that is new leads to a cached member. -/
theorem setMember (hl : s.Sided f) {h : MemberHandle} {r : Member}
    (hr : r.standing = (s.member h).standing ∨ f.Described r) (hlink : s.MayLink h r) :
    (s.setMember h r).Sided f := by
  refine hl.write fun hkeyed => ?_
  rcases hr with hsame | hnew
  -- the old link, or one that this write sets on a record that has its level
  · have hold := hl.placed h hkeyed
    refine ⟨hold.side.congr hsame, fun l hlinked => ?_⟩
    rcases hlink l hlinked with hbefore | hfound
    · obtain ⟨haccess, hmember⟩ := hold.link l hbefore
      exact ⟨Member.access_eq_of_standing hsame ▸ haccess, hmember⟩
    · exact hfound
  -- what is described for the first time links to nothing
  · exact ⟨hnew.sided, fun l hlinked => nomatch hnew.unlinked.symm.trans hlinked⟩

/-- A copy is made: onto a cached member another, under another name. -/
theorem runCopy (hl : s.Sided f) {d : Copy} (hd : s.Unmoved d) : (s.runCopy d).Sided f := by
  refine hl.write (h := d.target) (r := d.adjust.apply (s.member d.source)) fun htarget => ?_
  obtain ⟨hsource, symbol, hadjust⟩ := hd htarget
  obtain ⟨hside, hlink⟩ := hl.placed _ hsource
  -- another name changes neither the side nor the link
  rw [hadjust]
  exact ⟨hside, hlink⟩

theorem unmoved_runCopy {d e : Copy} (he : s.Unmoved e) : (s.runCopy d).Unmoved e := by
  unfold Unmoved Keyed at he ⊢
  rw [members_runCopy, Registry.keyAt_modify, Registry.keyAt_modify]
  exact he

theorem copied (hl : s.Sided f) {d : Copy} (hd : s.Unmoved d) : (s.copied d).Sided f := by
  refine (hl.runCopy hd).congr rfl fun e he => ?_
  rcases List.mem_append.1 he with he | he
  · exact .inl he
  · exact .inr (unmoved_runCopy (List.mem_singleton.1 he ▸ hd))

theorem foldl_runCopy {l : List Copy} (hcopies : ∀ d ∈ l, s.Unmoved d) (hl : s.Sided f) :
    (l.foldl Store.runCopy s).Sided f := by
  induction l generalizing s with
  | nil => exact hl
  | cons d l ih =>
    refine ih (fun e he => ?_) (hl.runCopy (hcopies d List.mem_cons_self))
    exact unmoved_runCopy (hcopies e (List.mem_cons_of_mem d he))

/-- The copies made again leave cached members on their side. -/
theorem leave (hl : s.Sided f) : s.leave.Sided f := by
  by_cases hd : 1 < s.depth
  · rw [leave_inner hd]
    exact hl.congr rfl fun _ => .inl
  · rw [leave_last (Nat.not_lt.1 hd)]
    exact (foldl_runCopy hl.pending hl).congr rfl nofun

theorem change (hl : s.Sided cx.facts) (hs : s.Sound) (h : Change cx c s s') : s'.Sided cx.facts := by
  cases h with
  | member h r _ _ hstanding _ hlink => exact hl.setMember (hstanding.imp id And.right) hlink
  | view source adjust k =>
    -- a view may change its side, having no key
    refine (hl.addMember hs none).copied fun htarget => absurd ?_ htarget
    exact (Registry.keyAt_push ..).trans (if_pos rfl)
  | newMember => exact hl.addMember hs none
  | _ => exact hl.congr rfl fun _ => .inl

/-- The beginning of a filling. -/
theorem register (hl : s.Sided f) (hs : s.Sound) (key : Key) : (s.enter.register key).Sided f := by
  cases key with
  | member k => exact (hl.addMember hs (some k)).congr rfl fun _ => .inl
  | type k => exact hl.congr rfl fun _ => .inl
  | unit i => exact hl.congr rfl fun _ => .inl

/-- The end of a filling: the target of an alias is cached. -/
theorem finish {s'' : Store} (hl : s'.Sided f) (hf : Finish cx s key s' s'') : s''.Sided f := by
  cases hf with
  | asIs => exact hl
  | aliased symbol source _ _ hfind =>
    exact hl.copied fun _ => ⟨IsMember.keyed hfind, symbol, rfl⟩

end Sided

end Store

/-! ## 3. Runs -/

theorem Store.Sided.invariant {cx : Context} : Store.Invariant cx fun s => s.Sided cx.facts where
  change := fun hs hl hc => hl.change hs hc
  register := fun hs _ hl => hl.register hs _
  finish := fun _ _ _ hl hend => hl.finish hend
  leave := fun _ hl => hl.leave
  completed := fun _ hl => hl.congr rfl fun _ => .inl

/-- **A run leaves every cached member on its side**, with its link to a cached member. -/
theorem Trace.sided {cx : Context} {n : Nat} {c : Scope} {s s' : Store} {o : Option Fault}
    (h : Trace cx n c s o s') (hs : s.Sound) (hl : s.Sided cx.facts) : s'.Sided cx.facts :=
  h.invariant Store.Sided.invariant hs hl

end ApiReference
