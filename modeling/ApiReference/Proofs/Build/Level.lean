/-
  One level for each member.

  A record begins without a level and gets its level in one write, which is the one that the facts give
  it.  No later write, tag, copy or end of a request adds another: a copy carries what its source does.

  1. `Store.Leveled`    -- one level at most, and for a member that is no copy the right one;
  2. one write, the beginning and the end of a request keep it;
  3. `Trace.leveled`    -- so does a run.
-/
import ApiReference.Proofs.Build.Logic

namespace ApiReference

/-! ## 1. Levels in a store -/

/-- **Every member carries one level at most**, and a member that is no copy carries the one that the
    facts give it, or none where they give it none. -/
structure Store.Leveled (f : Facts) (s : Store) : Prop where
  single : ∀ h, (s.member h).SingleLevel
  stated : ∀ h, s.Original h → f.Leveled (s.member h)

namespace Store.Leveled

variable {cx : Context} {c : Scope} {f : Facts} {s s' : Store} {key : Key}

theorem empty : ({} : Store).Leveled f where
  single := fun _ => (Facts.leveled_empty (f := f)).single
  stated := fun _ _ => Facts.leveled_empty

/-! ## 2. One step -/

/-- **Members that are left alone** keep their levels, and a new record has none. -/
theorem spared (hl : s.Leveled f) (h : s.Spared s') (hsingle : ∀ x, (s'.member x).SingleLevel) :
    s'.Leveled f where
  single := hsingle
  stated := by
    intro x hx
    rcases h.member x hx with hsame | ⟨-, hblank⟩
    · rw [hsame]
      exact hl.stated x (h.original_of hx)
    · rw [hblank]
      exact Facts.leveled_empty

/-- Where no member is written, none changes its level. -/
theorem congr (hl : s.Leveled f) (hg : s.Grows s') (hmembers : s'.members = s.members)
    (hcopies : s'.copies = s.copies) : s'.Leveled f := by
  refine hl.spared (.of_eq hg hmembers hcopies) fun x => ?_
  show (s'.members.recordAt x.index).SingleLevel
  rw [hmembers]
  exact hl.single x

theorem single_addMember (hl : ∀ h, (s.member h).SingleLevel) (k : Option (Option SymbolId))
    (h : MemberHandle) : ((s.addMember k).member h).SingleLevel :=
  Registry.recordAt_add (P := Member.SingleLevel) (fun i => hl ⟨i⟩)
    (Facts.leveled_empty (f := {})).single k h.index

theorem addMember (hl : s.Leveled f) (k : Option (Option SymbolId)) : (s.addMember k).Leveled f :=
  hl.spared (.addMember s k) (single_addMember hl.single k)

/-- A record is written in its standing, or gets its level. -/
theorem setMember (hl : s.Leveled f) {h : MemberHandle} {r : Member}
    (hr : r.standing = (s.member h).standing ∨ f.Leveled r) : (s.setMember h r).Leveled f := by
  have hsingle : r.SingleLevel := by
    rcases hr with hsame | hlevel
    · exact (hl.single h).congr (Member.access_eq_of_standing hsame)
    · exact hlevel.single
  refine ⟨fun x => ?_, fun x ho => ?_⟩
  · exact Registry.recordAt_write (P := Member.SingleLevel)
      (fun i => hl.single ⟨i⟩) hsingle h.index x.index
  · by_cases he : x = h
    · subst he
      have hlevel : f.Leveled r := hr.elim (fun hsame => (hl.stated x ho).congr hsame) id
      by_cases hin : s.HasMember x
      · rw [member_setMember_self hin]
        exact hlevel
      · have hnothing : s.setMember x r = s := by
          have hmembers := Registry.modify_of_size_le (Nat.not_lt.1 hin) fun _ => r
          unfold Store.setMember
          rw [hmembers]
        rw [hnothing]
        exact hl.stated x ho
    · rw [member_setMember_ne he]
      exact hl.stated x ho

/-- A copy carries the level of its source. -/
theorem single_runCopy (hl : ∀ h, (s.member h).SingleLevel) (d : Copy)
    (h : MemberHandle) : ((s.runCopy d).member h).SingleLevel := by
  exact Registry.recordAt_write (P := Member.SingleLevel) (fun i => hl ⟨i⟩)
    ((hl d.source).congr (Adjust.access_apply ..)) d.target.index h.index

theorem copied (hl : s.Leveled f) (d : Copy) : (s.copied d).Leveled f :=
  hl.spared (.copied s d) (single_runCopy hl.single d)

/-- The copies made again leave the levels as they are. -/
theorem leave (hl : s.Leveled f) (hs : s.Sound) : s.leave.Leveled f := by
  refine hl.spared (.leave hs) fun h => ?_
  by_cases hd : 1 < s.depth
  · rw [leave_inner hd]
    exact hl.single h
  · rw [leave_last (Nat.not_lt.1 hd)]
    have hall : ∀ (l : List Copy) (s : Store), (∀ h, (s.member h).SingleLevel) →
        ∀ h, ((l.foldl runCopy s).member h).SingleLevel := by
      intro l
      induction l with
      | nil => exact fun s hs => hs
      | cons d l ih => exact fun s hs => ih (s.runCopy d) (single_runCopy hs d)
    exact hall s.pending s hl.single h

theorem change (hl : s.Leveled cx.facts) (h : Change cx c s s') : s'.Leveled cx.facts := by
  have hg := h.grows
  cases h with
  | member h r _ _ hstanding => exact hl.setMember (hstanding.imp id (·.2.leveled))
  | view source adjust k => exact (hl.addMember none).copied _
  | newMember => exact hl.addMember none
  | _ => exact hl.congr hg rfl rfl

/-- The beginning of a filling. -/
theorem register (hl : s.Leveled f) (key : Key) : (s.enter.register key).Leveled f := by
  refine hl.spared (.register s key) fun h => ?_
  cases key with
  | member k => exact single_addMember (s := s.enter) hl.single (some k) h
  | type k => exact hl.single h
  | unit i => exact hl.single h

theorem finish {s'' : Store} (hl : s'.Leveled f) (hf : Finish cx s key s' s'') : s''.Leveled f := by
  cases hf with
  | asIs => exact hl
  | aliased symbol source => exact hl.copied _

end Store.Leveled

/-! ## 3. Runs -/

theorem Store.Leveled.invariant {cx : Context} : Store.Invariant cx fun s => s.Leveled cx.facts where
  change := fun _ hl hc => hl.change hc
  register := fun _ _ hl => hl.register _
  finish := fun _ _ _ hl hend => hl.finish hend
  leave := fun hs hl => hl.leave hs
  completed := fun _ hl => hl.congr ⟨.refl _, .refl _, .refl _⟩ rfl rfl

/-- **A run keeps one level for each member.** -/
theorem Trace.leveled {cx : Context} {n : Nat} {c : Scope} {s s' : Store} {o : Option Fault}
    (h : Trace cx n c s o s') (hs : s.Sound) (hl : s.Leveled cx.facts) : s'.Leveled cx.facts :=
  h.invariant Store.Leveled.invariant hs hl

end ApiReference
