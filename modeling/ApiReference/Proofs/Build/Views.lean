/-
  No copy is left behind.

  A copy may be taken of a record that is still filling, or of an alias whose own copy has not been
  made, so every copy is made again when the outermost request ends.  Making them again in the order
  they were asked for is enough: no record is copied onto twice, and where a view of an alias waits
  before the copy of the alias itself, the alias already shows its target and nothing touches either
  any more.

  1. `Copy.Synced`      -- the target is the adjusted source;
  2. the copies made again, in order;
  3. `Queue`            -- what holds of the copies that wait, in the scope of a filling;
  4. one write, and one nested filling, keep the queue;
  5. `Trace.synced`       -- between requests every copy ever made is in step.
-/
import ApiReference.Proofs.Build.Logic
import ApiReference.Proofs.Facts.Aliases

namespace ApiReference

/-! ## 1. Copies in step -/

/-- **A copy in step**: its target is the adjusted source. -/
def Copy.Synced (s : Store) (p : Copy) : Prop := s.member p.target = p.adjust.apply (s.member p.source)

/-- A store with the same two records has the copy in step too. -/
theorem Copy.Synced.congr {s s' : Store} {p : Copy} (h : p.Synced s)
    (hsource : s'.member p.source = s.member p.source)
    (htarget : s'.member p.target = s.member p.target) : p.Synced s' := by
  rw [Copy.Synced, hsource, htarget]
  exact h

/-- A copy that was just made is in step. -/
theorem Store.synced_runCopy {s : Store} {p : Copy} (hne : p.source ≠ p.target)
    (htarget : s.HasMember p.target) : p.Synced (s.runCopy p) := by
  have hsource : (s.runCopy p).member p.source = s.member p.source :=
    Registry.recordAt_modify_ne _ _ (MemberHandle.index_ne hne)
  have hwritten : (s.runCopy p).member p.target = p.adjust.apply (s.member p.source) :=
    (Registry.recordAt_modify _ _ htarget _).trans (if_pos rfl)
  rw [Copy.Synced, hsource, hwritten]

/-! ## 2. Copies made again -/

/-- **Copies made again in order are in step at the end**, if no record is copied onto twice, and a
    copy that comes after one of its target is in step already, with a source that none of them
    touches. -/
theorem Store.synced_foldl_runCopy {l : List Copy} {s : Store} (hnodup : (l.map Copy.target).Nodup)
    (hapart : ∀ p ∈ l, p.source ≠ p.target) (hin : ∀ p ∈ l, s.HasMember p.target)
    (horder : l.Pairwise fun p d => p.source = d.target →
      d.Synced s ∧ ∀ q ∈ l, q.target ≠ d.source) :
    ∀ p ∈ l, p.Synced (l.foldl Store.runCopy s) := by
  induction l generalizing s with
  | nil => exact fun p hp => absurd hp List.not_mem_nil
  | cons p l ih =>
    rw [List.map_cons, List.nodup_cons] at hnodup
    obtain ⟨hfresh, hnodup⟩ := hnodup
    obtain ⟨hfirst, hrest⟩ := List.pairwise_cons.1 horder
    have hother : ∀ d ∈ l, d.target ≠ p.target :=
      fun d hd e => hfresh (e ▸ List.mem_map_of_mem hd)
    -- the first copy leaves those in step that the order asks to be
    have hkeep : ∀ d ∈ l, d.Synced s → p.target ≠ d.source → d.Synced (s.runCopy p) := by
      intro d hd hsync hne
      refine hsync.congr ?_ ?_
      · exact Registry.recordAt_modify_ne _ _ (MemberHandle.index_ne hne.symm)
      · exact Registry.recordAt_modify_ne _ _ (MemberHandle.index_ne (hother d hd))
    have hlater : ∀ d ∈ l, d.Synced (l.foldl Store.runCopy (s.runCopy p)) := by
      refine ih hnodup (fun d hd => hapart d (List.mem_cons_of_mem p hd)) (fun d hd => ?_)
        (hrest.imp_of_mem fun {a d} _ hd h e => ?_)
      · exact Nat.lt_of_lt_of_eq (hin d (List.mem_cons_of_mem p hd)) (Registry.size_modify ..).symm
      · obtain ⟨hsync, hquiet⟩ := h e
        exact ⟨hkeep d hd hsync (hquiet p List.mem_cons_self),
          fun q hq => hquiet q (List.mem_cons_of_mem p hq)⟩
    have hnow : p.Synced (s.runCopy p) :=
      synced_runCopy (hapart p List.mem_cons_self) (hin p List.mem_cons_self)
    intro q hq
    rw [List.foldl_cons]
    rcases List.mem_cons.1 hq with rfl | hq
    · refine hnow.congr ?_ (member_foldl_runCopy hother _)
      by_cases hcopied : ∃ d ∈ l, d.target = q.source
      · -- the source is copied onto again, with what it shows now
        obtain ⟨d, hd, he⟩ := hcopied
        obtain ⟨hsync, hquiet⟩ := hfirst d hd he.symm
        have hsource := member_foldl_runCopy
          (fun e he => hquiet e (List.mem_cons_of_mem q he)) (s.runCopy q)
        rw [← he]
        exact (hlater d hd).trans ((congrArg d.adjust.apply hsource).trans
          (hkeep d hd hsync (hquiet q List.mem_cons_self)).symm)
      · exact member_foldl_runCopy (fun d hd e => hcopied ⟨d, hd, e⟩) _
    · exact hlater q hq

/-! ## 3. The copies that wait -/

/-- **A copy that nothing reaches any more**: it is in step, its two records are not the one being
    filled, its source is not copied onto, and was registered after its target. -/
structure Copy.Settled (c : Scope) (s : Store) (d : Copy) : Prop where
  synced : d.Synced s
  target : c.member ≠ some d.target
  source : c.member ≠ some d.source
  quiet : ∀ q ∈ s.pending, q.target ≠ d.source
  later : d.target.index < d.source.index

/-- **The copies that wait** in the scope of a filling, after those of requests that have ended.  Only
    registered records are copied, and only onto views and aliases. -/
structure Queue (cx : Context) (ended : List Copy) (c : Scope) (s : Store) : Prop where
  copies : s.copies = ended ++ s.pending
  targets : (s.pending.map Copy.target).Nodup
  apart : ∀ p ∈ s.pending, p.source ≠ p.target
  sourceKey : ∀ p ∈ s.pending, s.members.keyAt p.source.index ≠ none
  targetKey : ∀ p ∈ s.pending, ∀ k, s.members.keyAt p.target.index = some k →
    ∃ a, k = some a ∧ cx.facts.aliasedSymbol a ≠ a
  order : s.pending.Pairwise fun p d => p.source = d.target → d.Settled c s

namespace Queue

variable {cx : Context} {ended : List Copy} {c : Scope} {s s' s'' : Store} {key : Key}

/-- Where none waits. -/
theorem of_nil (c : Scope) (hp : s.pending = []) : Queue cx s.copies c s where
  copies := by rw [hp, List.append_nil]
  targets := by rw [hp]; exact .nil
  apart := by rw [hp]; exact fun p h => absurd h List.not_mem_nil
  sourceKey := by rw [hp]; exact fun p h => absurd h List.not_mem_nil
  targetKey := by rw [hp]; exact fun p h => absurd h List.not_mem_nil
  order := by rw [hp]; exact .nil

/-- The records of a copy that waits are there. -/
theorem inRange (hs : s.Sound) {p : Copy} (hp : p ∈ s.pending) :
    s.HasMember p.source ∧ s.HasMember p.target :=
  ⟨(hs.copies p (hs.pending p hp)).1, (hs.copies p (hs.pending p hp)).2.1⟩

/-- **The same copies wait in a store with more records**, if those that must be are still settled. -/
theorem mono (hq : Queue cx ended c s) (hs : s.Sound) {c' : Scope} (hg : s.Grows s')
    (hcopies : s'.copies = s.copies) (hpending : s'.pending = s.pending)
    (hsettled : ∀ d ∈ s.pending, s.members.keyAt d.target.index ≠ none → d.Settled c s →
      d.Settled c' s') : Queue cx ended c' s' where
  copies := by rw [hcopies, hpending, hq.copies]
  targets := hpending ▸ hq.targets
  apart := hpending ▸ hq.apart
  sourceKey := by
    rw [hpending]
    intro p hp
    rw [hg.members.keyAt _ (inRange hs hp).1]
    exact hq.sourceKey p hp
  targetKey := by
    rw [hpending]
    intro p hp
    rw [hg.members.keyAt _ (inRange hs hp).2]
    exact hq.targetKey p hp
  order := by
    rw [hpending]
    refine hq.order.imp_of_mem fun {p d} hp hd h e => hsettled d hd ?_ (h e)
    rw [← e]
    exact hq.sourceKey p hp

/-- **One more copy waits**, onto a record that none was made onto. -/
theorem copied (hq : Queue cx ended c s) {d : Copy} (hne : d.source ≠ d.target)
    (hkey : s.members.keyAt d.source.index ≠ none)
    (htarget : ∀ k, s.members.keyAt d.target.index = some k →
      ∃ a, k = some a ∧ cx.facts.aliasedSymbol a ≠ a)
    (hfresh : ∀ p ∈ s.pending, p.target ≠ d.target)
    (huntouched : s.pending.Pairwise fun p e => p.source = e.target → e.source ≠ d.target)
    (hsettled : ∀ p ∈ s.pending, p.source = d.target → d.Settled c (s.copied d)) :
    Queue cx ended c (s.copied d) := by
  have hkeyAt : ∀ h, (s.copied d).members.keyAt h = s.members.keyAt h :=
    fun h => Registry.keyAt_modify ..
  have hmember : ∀ x : MemberHandle, x ≠ d.target → (s.copied d).member x = s.member x :=
    fun x hx => Registry.recordAt_modify_ne _ _ (MemberHandle.index_ne hx)
  refine ⟨?_, ?_, ?_, ?_, ?_, ?_⟩
  · show s.copies ++ [d] = ended ++ (s.pending ++ [d])
    rw [hq.copies, List.append_assoc]
  · show ((s.pending ++ [d]).map Copy.target).Nodup
    rw [List.map_append, List.nodup_append]
    refine ⟨hq.targets, List.pairwise_singleton _ _, fun x hx y hy => ?_⟩
    obtain ⟨p, hp, rfl⟩ := List.mem_map.1 hx
    rw [List.mem_singleton.1 hy]
    exact hfresh p hp
  · exact List.forall_mem_append.2 ⟨hq.apart, List.forall_mem_singleton.2 hne⟩
  · simp only [hkeyAt]
    exact List.forall_mem_append.2 ⟨hq.sourceKey, List.forall_mem_singleton.2 hkey⟩
  · simp only [hkeyAt]
    exact List.forall_mem_append.2 ⟨hq.targetKey, List.forall_mem_singleton.2 htarget⟩
  · show (s.pending ++ [d]).Pairwise _
    -- two copies from before stay in order, as the new one touches neither; then each of them and
    -- the new one
    refine List.pairwise_append.2 ⟨?_, List.pairwise_singleton _ _, fun p hp e he => ?_⟩
    · refine (hq.order.and huntouched).imp_of_mem fun {p e} hp he h heq => ?_
      have hold := h.1 heq
      have hsource := h.2 heq
      refine ⟨hold.synced.congr (hmember _ hsource) (hmember _ (hfresh e he)), hold.target,
        hold.source, fun q hmem => ?_, hold.later⟩
      rcases List.mem_append.1 hmem with hmem | hmem
      · exact hold.quiet q hmem
      · rw [List.mem_singleton.1 hmem]
        exact hsource.symm
    · rw [List.mem_singleton.1 he]
      exact hsettled p hp

/-! ## 4. Writes and nested fillings -/

/-- A write of a filling leaves settled copies settled: they lie between registered records, and it
    owns no registered record but its own. -/
theorem settled_change (hc : Change cx c s s') (hs : s.Sound) (hpending : s'.pending = s.pending)
    {d : Copy} (hd : d ∈ s.pending) (htarget : s.members.keyAt d.target.index ≠ none)
    (hsource : s.members.keyAt d.source.index ≠ none) (h : d.Settled c s) : d.Settled c s' := by
  have hk := Kept.of_change hc
  have hrange := inRange hs hd
  refine ⟨h.synced.congr (hk.member _ hrange.1 ?_) (hk.member _ hrange.2 ?_), h.target, h.source,
    hpending ▸ h.quiet, h.later⟩
  · rintro ⟨-, -, he | ⟨-, hnone⟩⟩
    · exact h.source he
    · exact hsource hnone
  · rintro ⟨-, -, he | ⟨-, hnone⟩⟩
    · exact h.target he
    · exact htarget hnone

/-- A write that asks for no copy. -/
theorem of_change (hq : Queue cx ended c s) (hs : s.Sound) (hc : Change cx c s s')
    (hcopies : s'.copies = s.copies) (hpending : s'.pending = s.pending) : Queue cx ended c s' :=
  hq.mono hs (Kept.of_change hc).grows hcopies hpending fun d hd htarget h =>
    settled_change hc hs hpending hd htarget (hq.sourceKey d hd) h

/-- **A write keeps the queue.** -/
theorem change (hq : Queue cx ended c s) (hs : s.Sound) (hc : Change cx c s s') :
    Queue cx ended c s' := by
  have hchange := hc
  cases hc with
  | view source adjust k hd hfind ha =>
    have hnew : Queue cx ended c (s.addMember none) := hq.of_change hs .newMember rfl rfl
    -- a view is a copy onto a member made for it, which no queued copy knows
    have hrange : ∀ p ∈ s.pending, p.source ≠ ⟨s.members.size⟩ ∧ p.target ≠ ⟨s.members.size⟩ := by
      intro p hp
      obtain ⟨hsource, htarget⟩ := inRange hs hp
      exact ⟨fun e => absurd hsource (e ▸ Nat.lt_irrefl _),
        fun e => absurd htarget (e ▸ Nat.lt_irrefl _)⟩
    have hlt : source.index < s.members.size := Registry.lt_size_of_find? hfind
    have hkey : (s.addMember none).members.keyAt source.index = some k :=
      (Registry.keyAt_push ..).trans ((if_neg (Nat.ne_of_lt hlt)).trans (Registry.keyAt_of_find? hfind))
    have hloose : (s.addMember none).members.keyAt s.members.size = none :=
      (Registry.keyAt_push ..).trans (if_pos rfl)
    refine hnew.copied ?_ ?_ ?_ ?_ ?_ ?_
    · exact fun e => absurd (congrArg MemberHandle.index e) (Nat.ne_of_lt hlt)
    · rw [hkey]
      exact fun e => nomatch e
    · intro k' hk'
      rw [hloose] at hk'
      exact nomatch hk'
    · exact fun p hp => (hrange p hp).2
    · exact hq.order.imp_of_mem fun _ he _ _ => (hrange _ he).1
    · exact fun p hp e => absurd e (hrange p hp).1
  | _ => exact hq.of_change hs hchange rfl rfl

/-- Whether a record is filled is nothing to the queue. -/
theorem completed (hq : Queue cx ended c s) (x : RecordHandle) : Queue cx ended c (s.completed x) :=
  { hq with order := hq.order.imp fun h e => { h e with } }

/-- The queue of the scope around a filling is the one that the filling begins with. -/
theorem register (hq : Queue cx ended c s) (hs : s.Sound) (key : Key) :
    Queue cx ended (Scope.ofKey s key) (s.enter.register key) := by
  refine hq.mono hs (Store.grows_enter_register s key) Store.copies_register Store.pending_register
    fun d hd _ h => ?_
  obtain ⟨hsource, htarget⟩ := inRange hs hd
  have hown : ∀ h : MemberHandle, s.HasMember h → (Scope.ofKey s key).member ≠ some h :=
    fun h hh => Scope.member_ofKey_ne hh
  refine ⟨h.synced.congr (Store.member_register (s := s.enter) hsource)
    (Store.member_register (s := s.enter) htarget), hown _ htarget, hown _ hsource, ?_, h.later⟩
  rw [Store.pending_register]
  exact h.quiet

/-- A filling that is over has left the records that were there before it. -/
theorem member_filling (hk : Kept (Scope.ofKey s key) (s.enter.register key) s') {h : MemberHandle}
    (hh : s.HasMember h) : s'.member h = s.member h := by
  rw [hk.member h (hh.mono (Store.grows_enter_register s key).extends)
    (Scope.not_ownsMember_ofKey hh)]
  exact Store.member_register (s := s.enter) hh

/-- The copies that a filling asked for are made onto records from its own on. -/
theorem pending_filling (hk : Kept (Scope.ofKey s key) (s.enter.register key) s') :
    Appended (s.enter.register key).members.size s.pending s'.pending := by
  have h := hk.pending
  rw [Store.pending_register] at h
  exact h

/-- **Back in the scope around a filling.**  What the filling settled was registered after the record
    that the scope fills. -/
theorem outward (hq : Queue cx ended c s) (hs : s.Sound) (hfit : c.Fits s)
    (hk : Kept (Scope.ofKey s key) (s.enter.register key) s')
    (hq' : Queue cx ended (Scope.ofKey s key) s') : Queue cx ended c s' := by
  obtain ⟨new, hnew, hlate⟩ := pending_filling hk
  have hsize := (Store.grows_enter_register s key).members.size
  have hown : ∀ h : MemberHandle, s.members.size ≤ h.index → c.member ≠ some h :=
    fun h hle e => absurd (hfit.member h e).1 (Nat.not_lt.2 hle)
  have horder := hq'.order
  refine { hq' with order := ?_ }
  rw [hnew] at horder ⊢
  obtain ⟨-, hinner, -⟩ := List.pairwise_append.1 horder
  -- two copies queued before the filling, two queued in it, and one of each
  refine List.pairwise_append.2 ⟨?_, ?_, fun p hp d hd e => ?_⟩
  · refine hq.order.imp_of_mem fun {p d} hp hd h e => ?_
    obtain ⟨hsync, htarget, hsource, hquiet, hlater⟩ := h e
    have hrange := inRange hs hd
    refine ⟨hsync.congr (member_filling hk hrange.1) (member_filling hk hrange.2), htarget, hsource,
      fun q hmem => ?_, hlater⟩
    rw [hnew] at hmem
    rcases List.mem_append.1 hmem with hmem | hmem
    · exact hquiet q hmem
    · intro heq
      have hlt : d.source.index < s.members.size := hrange.1
      have hle := hlate q hmem
      rw [heq] at hle
      omega
  · refine hinner.imp_of_mem fun {p d} _ hd h e => ?_
    obtain ⟨hsync, -, -, hquiet, hlater⟩ := h e
    have hle := hlate d hd
    exact ⟨hsync, hown _ (by omega), hown _ (by omega), hquiet, hlater⟩
  · have hlt : p.source.index < s.members.size := (inRange hs hp).1
    have hle := hlate d hd
    rw [← e] at hle
    omega

/-- **The end of a filling keeps the queue** of the scope around it. -/
theorem finish (hq : Queue cx ended c s) (hs : s.Sound) (hfit : c.Fits s)
    (hk : Kept (Scope.ofKey s key) (s.enter.register key) s')
    (hq' : Queue cx ended (Scope.ofKey s key) s') (hend : Finish cx s key s' s'') :
    Queue cx ended c s'' := by
  have hout := hq.outward hs hfit hk hq'
  cases hend with
  | asIs => exact hout
  | aliased symbol source _ hne hfind hguard =>
    -- an alias is a copy onto the first record that its filling made
    obtain ⟨new, hnew, hlate⟩ := pending_filling hk
    have hsize : (s.enter.register (.member (some symbol))).members.size = s.members.size + 1 :=
      Registry.size_push ..
    have hown : s'.members.keyAt s.members.size = some (some symbol) :=
      (hk.grows.members.keyAt _ (by omega)).trans ((Registry.keyAt_push ..).trans (if_pos rfl))
    have hkey : s'.members.keyAt source.index = some (some (cx.facts.aliasedSymbol symbol)) :=
      Registry.keyAt_of_find? hfind
    have hapart : source ≠ ⟨s.members.size⟩ := by
      rintro rfl
      rw [hown] at hkey
      exact hne (Option.some.inj (Option.some.inj hkey)).symm
    have htarget : s'.HasMember ⟨s.members.size⟩ := by
      have hle := hk.grows.members.size
      exact Nat.lt_of_lt_of_le (Nat.lt_of_lt_of_eq (Nat.lt_succ_self _) hsize.symm) hle
    have hscope : ∀ h : MemberHandle, s.members.size ≤ h.index → c.member ≠ some h :=
      fun h hle e => absurd (hfit.member h e).1 (Nat.not_lt.2 hle)
    refine hout.copied hapart ?_ ?_ ?_ ?_ ?_
    · rw [hkey]
      exact fun e => nomatch e
    · intro k hk'
      rw [hown] at hk'
      exact ⟨symbol, (Option.some.inj hk').symm, hne⟩
    · intro p hp e
      rw [hnew] at hp
      rcases List.mem_append.1 hp with hp | hp
      · exact absurd (inRange hs hp).2 (e ▸ Nat.lt_irrefl _)
      · have hle := hlate p hp
        rw [e] at hle
        exact absurd hle (by dsimp only; omega)
    · exact hq'.order.imp fun h e => fun hs => (h e).source (congrArg some hs).symm
    · intro p hp e
      have hlater : s.members.size < source.index := by
        rcases hguard with hnone | hlater
        · exact absurd (congrArg MemberHandle.index e) (hnone p hp)
        · exact hlater
      refine ⟨Store.synced_runCopy hapart htarget, hscope _ (Nat.le_refl _),
        hscope _ (Nat.le_of_lt hlater), fun q hmem he => ?_, hlater⟩
      -- the target of an alias is no alias, so nothing is copied onto it
      rcases List.mem_append.1 hmem with hmem | hmem
      · have hq := hq'.targetKey q hmem
        rw [he] at hq
        obtain ⟨a, ha, halias⟩ := hq _ hkey
        cases ha
        exact halias (Facts.aliasedSymbol_idem symbol)
      · rw [List.mem_singleton.1 hmem] at he
        exact hapart he.symm

end Queue

/-! ## 5. Runs -/

/-- Between requests every copy is in step; inside one, those of the requests before it are done with
    and the others wait. -/
def Store.InStep (cx : Context) (ended : List Copy) (c : Scope) (s : Store) : Prop :=
  if s.depth = 0 then ∀ p ∈ s.copies, p.Synced s else Queue cx ended c s

namespace Store.InStep

variable {cx : Context} {ended : List Copy} {c : Scope} {s s' s'' : Store} {key : Key}

/-- The queue with which a filling begins. -/
theorem queue (h : s.InStep cx ended c) (hs : s.Sound) :
    ∃ ended', Queue cx ended' c s ∧ (s.depth ≠ 0 → ended' = ended) := by
  by_cases hd : s.depth = 0
  · exact ⟨s.copies, .of_nil c (hs.calm hd), fun hne => absurd hd hne⟩
  · rw [InStep, if_neg hd] at h
    exact ⟨ended, h, fun _ => rfl⟩

theorem change (h : s.InStep cx ended c) (hs : s.Sound) (hc : Change cx c s s') :
    s'.InStep cx ended c := by
  have hdepth := (Kept.of_change hc).depth
  -- outside of requests nothing waits, and no scope owns a record
  by_cases hd : s.depth = 0
  · rw [InStep, if_pos (hdepth.trans hd)]
    rw [InStep, if_pos hd] at h
    have hk := Kept.of_change hc
    have hcopies : s'.copies = s.copies := by
      cases hc with
      | view source adjust k hpos => exact absurd hd (Nat.ne_of_gt hpos)
      | _ => rfl
    rw [hcopies]
    intro p hp
    obtain ⟨hsource, htarget, -⟩ := hs.copies p hp
    have hown : ∀ x, ¬ c.OwnsMember s x := fun x hx => absurd hx.1 (by omega)
    exact (h p hp).congr (hk.member _ hsource (hown _)) (hk.member _ htarget (hown _))
  · rw [InStep, if_neg (hdepth ▸ hd)]
    rw [InStep, if_neg hd] at h
    exact h.change hs hc

/-- Whether a record is filled is nothing to a copy. -/
theorem completed (h : s.InStep cx ended c) (x : RecordHandle) : (s.completed x).InStep cx ended c := by
  have hdepth : (s.completed x).depth = s.depth := rfl
  by_cases hd : s.depth = 0
  · rw [InStep, if_pos hd] at h
    rw [InStep, hdepth, if_pos hd]
    exact h
  · rw [InStep, if_neg hd] at h
    rw [InStep, hdepth, if_neg hd]
    exact h.completed x

/-- **One filling**, whether it is the outermost or not. -/
theorem filling (h : s.InStep cx ended c) (hs : s.Sound) (hfit : c.Fits s)
    (hk : Kept (Scope.ofKey s key) (s.enter.register key) s')
    (hinner : ∀ e, (s.enter.register key).InStep cx e (Scope.ofKey s key) →
      s'.InStep cx e (Scope.ofKey s key))
    (hend : Finish cx s key s' s'') (hs'' : s''.Sound) : s''.leave.InStep cx ended c := by
  obtain ⟨ended', hq, hsame⟩ := h.queue hs
  have hpos : (s.enter.register key).depth ≠ 0 := by
    rw [depth_register]
    exact Nat.succ_ne_zero _
  have hq' := hinner ended'
  rw [InStep, InStep, if_neg hpos, if_neg (hk.depth ▸ hpos)] at hq'
  have hlast := hq.finish hs hfit hk (hq' (hq.register hs key)) hend
  have hdepth : s''.depth = s.depth + 1 := by rw [hend.depth, hk.depth, Store.depth_register]; rfl
  have hleave : s''.leave.depth = s.depth := by rw [depth_leave, hdepth]; rfl
  by_cases hd : s.depth = 0
  · -- the outermost request ends: what was in step before still is, and the rest is made again
    rw [InStep, if_pos hd] at h
    rw [InStep, if_pos (hleave.trans hd), copies_leave, hlast.copies]
    have hended : ∀ p ∈ ended', p ∈ s.copies := by
      intro p hp
      rw [hq.copies]
      exact List.mem_append_left _ hp
    have hkept : Kept c s s''.leave := .of_filling hs.calm hk hend
    intro p hp
    rcases List.mem_append.1 hp with hp | hp
    · obtain ⟨hsource, htarget, -⟩ := hs.copies p (hended p hp)
      have hown : ∀ x, ¬ c.OwnsMember s x := fun x hx => absurd hx.1 (by omega)
      exact (h p (hended p hp)).congr (hkept.member _ hsource (hown _))
        (hkept.member _ htarget (hown _))
    · rw [leave_last (by omega)]
      refine synced_foldl_runCopy hlast.targets hlast.apart (fun d hd => (Queue.inRange hs'' hd).2) ?_
        p hp
      exact hlast.order.imp fun h e => ⟨(h e).synced, (h e).quiet⟩
  · have hsame := hsame hd
    subst hsame
    rw [InStep, if_neg (hleave ▸ hd)]
    rw [leave_inner (by omega)]
    exact ⟨hlast.copies, hlast.targets, hlast.apart, hlast.sourceKey, hlast.targetKey,
      hlast.order.imp fun h e => ⟨(h e).synced, (h e).target, (h e).source, (h e).quiet, (h e).later⟩⟩

end Store.InStep

/-- **A run keeps every copy in step.** -/
theorem Trace.inStep {cx : Context} {n : Nat} {c : Scope} {s s' : Store} {o : Option Fault}
    (h : Trace cx n c s o s') (hs : s.Sound) (hfit : c.Fits s) (ended : List Copy)
    (hstep : s.InStep cx ended c) : s'.InStep cx ended c := by
  induction h generalizing ended with
  | done => exact hstep
  | fault => exact hstep
  | change hc _ ih =>
    have hk := Kept.of_change hc
    exact ih (hs.change hc) (hfit.mono hk) ended (hstep.change hs hc)
  | cut key hkey =>
    exact hstep.filling hs hfit (.refl _ _) (fun _ he => he) (Finish.asIs key _) (hs.register hkey)
  | fail key f hkey _ hrun ih =>
    have hsound := hs.register hkey
    exact hstep.filling hs hfit (hrun.kept (Store.calm_register _ key)).1
      (ih hsound (Scope.fits_ofKey hs key)) (Finish.asIs key _) (hrun.sound hsound)
  | @fill n c s s₁ s₂ s₃ o key hkey _ hunit hrun hend _ _ ih ihrest =>
    have hsound := hs.register hkey
    have hk := (hrun.kept (Store.calm_register s key)).1
    have hsound₁ := hrun.sound hsound
    have hleft := hstep.filling hs hfit hk (ih hsound (Scope.fits_ofKey hs key)) hend
      (hsound₁.finish hk hend)
    exact ihrest (hsound₁.filling hk hend) (hfit.mono (.of_filled hs.calm hunit hk hend)) ended
      (hleft.completed _)

/-- **Between requests every copy ever made is in step**, whatever a run asked for and however it
    ended. -/
theorem Trace.synced {cx : Context} {n : Nat} {c : Scope} {s s' : Store} {o : Option Fault}
    (h : Trace cx n c s o s') (hs : s.Sound) (hfit : c.Fits s) (hd : s.depth = 0)
    (hsync : ∀ p ∈ s.copies, p.Synced s) : ∀ p ∈ s'.copies, p.Synced s' := by
  have hstep : s.InStep cx [] c := by
    rw [Store.InStep, if_pos hd]
    exact hsync
  have hend := h.inStep hs hfit [] hstep
  rw [Store.InStep, if_pos ((h.kept hs.calm).1.depth.trans hd)] at hend
  exact hend

end ApiReference
