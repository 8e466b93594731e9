/-
  What is copied onto what.

  A copy is made for a view, which is cached for nothing, or for an alias: onto the record of its symbol,
  from the record of the symbol that its links lead to.  The links of that one lead nowhere else, so no
  alias is copied onto its record, and no copy at all.

  1. `Copy.Warranted`, `Store.Aliased` -- the copies of a store, and what they are made from;
  2. one write, the beginning and the end of a request keep it;
  3. `Trace.aliased`                   -- so does a run.
-/
import ApiReference.Proofs.Build.Statics
import ApiReference.Proofs.Facts.Aliases

namespace ApiReference

/-! ## 1. The copies of a store -/

/-- **A copy for an alias**: onto the record of a symbol, from the record of its target, which is another
    symbol. -/
structure Copy.OfAlias (f : Facts) (s : Store) (symbol : SymbolId) (d : Copy) : Prop where
  adjust : d.adjust = .withRaw symbol
  leads : f.aliasedSymbol symbol ≠ symbol
  target : s.IsMember (some symbol) d.target
  source : s.IsMember (some (f.aliasedSymbol symbol)) d.source

/-- **A copy for a view**: under the same symbol, onto a record that is cached for nothing. -/
structure Copy.OfView (s : Store) (d : Copy) : Prop where
  adjust : ∀ symbol, d.adjust ≠ .withRaw symbol
  target : ¬ s.Keyed d.target

/-- **A copy is made for an alias or for a view.** -/
def Copy.Warranted (f : Facts) (s : Store) (d : Copy) : Prop :=
  (∃ symbol, d.OfAlias f s symbol) ∨ d.OfView s

/-- In a store with more records it is made for the same. -/
theorem Copy.Warranted.mono {f : Facts} {s s' : Store} {d : Copy} (hd : d.Warranted f s)
    (hg : s.Grows s') (hin : s.HasMember d.target) : d.Warranted f s' := by
  rcases hd with ⟨symbol, hadjust, hleads, htarget, hsource⟩ | ⟨hadjust, htarget⟩
  · exact .inl ⟨symbol, hadjust, hleads, hg.members.find? _ _ htarget, hg.members.find? _ _ hsource⟩
  · exact .inr ⟨hadjust, fun hkeyed => htarget ((hg.keyed hin).1 hkeyed)⟩

namespace Store

/-- **Every copy that was made has its reason.** -/
def Aliased (f : Facts) (s : Store) : Prop := ∀ d ∈ s.copies, d.Warranted f s

variable {f : Facts} {s s' : Store} {d : Copy} {symbol : SymbolId}

/-- A record is cached for one symbol. -/
theorem IsMember.symbol_unique {t : SymbolId} {h : MemberHandle} (hs : s.IsMember (some symbol) h)
    (ht : s.IsMember (some t) h) : symbol = t := by
  have hkey := (Registry.keyAt_of_find? hs).symm.trans (Registry.keyAt_of_find? ht)
  exact Option.some.inj (Option.some.inj hkey)

namespace Aliased

/-- What is copied onto the record of a symbol is copied for it as an alias. -/
theorem ofAlias_of_target (ha : s.Aliased f) (hd : d ∈ s.copies)
    (htarget : s.IsMember (some symbol) d.target) : d.OfAlias f s symbol := by
  rcases ha d hd with ⟨t, hd⟩ | hview
  · cases htarget.symbol_unique hd.target
    exact hd
  · exact absurd htarget.keyed hview.target

/-- What is copied under another symbol is copied for it as an alias. -/
theorem ofAlias_of_adjust (ha : s.Aliased f) (hd : d ∈ s.copies) (hadjust : d.adjust = .withRaw symbol) :
    d.OfAlias f s symbol := by
  rcases ha d hd with ⟨t, hd⟩ | hview
  · cases hadjust.symm.trans hd.adjust
    exact hd
  · exact absurd hadjust (hview.adjust symbol)

/-- **The record that an alias is copied from is no copy.** -/
theorem original_source (ha : s.Aliased f) (hd : d.OfAlias f s symbol) : s.Original d.source := by
  intro e he htarget
  have hsource := hd.source
  rw [← htarget] at hsource
  -- a copy onto it would be that of an alias, and the target of an alias is none
  exact (ha.ofAlias_of_target he hsource).leads (Facts.aliasedSymbol_idem symbol)

end Aliased

end Store

/-! ## 2. One step -/

namespace Store.Aliased

variable {cx : Context} {c : Scope} {f : Facts} {s s' : Store} {key : Key}

theorem empty : ({} : Store).Aliased f := fun _ hd => absurd hd List.not_mem_nil

/-- More records, and no copy. -/
theorem mono (ha : s.Aliased f) (hs : s.Sound) (hg : s.Grows s') (hcopies : s'.copies = s.copies) :
    s'.Aliased f := by
  intro d hd
  rw [hcopies] at hd
  exact (ha d hd).mono hg (hs.copies d hd).2.1

/-- One more copy is made. -/
theorem copied {d : Copy} (ha : s.Aliased f) (hs : s.Sound) (hd : d.Warranted f s)
    (hin : s.HasMember d.target) : (s.copied d).Aliased f := by
  have hg := (Spared.copied s d).grows
  intro e he
  rcases List.mem_append.1 he with he | he
  · exact (ha e he).mono hg (hs.copies e he).2.1
  · cases List.mem_singleton.1 he
    exact hd.mono hg hin

/-- A write copies nothing but a view. -/
theorem change (ha : s.Aliased cx.facts) (hs : s.Sound) (h : Change cx c s s') :
    s'.Aliased cx.facts := by
  have hg := h.grows
  cases h with
  | view source adjust k _ _ _ hadjust =>
    have hsound : (s.addMember none).Sound := hs.addMember (hs.memberKeys.push_none {})
    refine (ha.mono hs (grows_addMember s none) rfl).copied hsound (.inr ⟨hadjust, fun hkeyed => ?_⟩) ?_
    · exact hkeyed ((Registry.keyAt_push ..).trans (if_pos rfl))
    · exact Nat.lt_of_lt_of_eq (Nat.lt_succ_self _) (Registry.size_push ..).symm
  | _ => exact ha.mono hs hg rfl

/-- The end of a filling: an alias is copied onto the record that was registered for its symbol. -/
theorem finish {s'' : Store} (ha : s'.Aliased cx.facts) (hs : s'.Sound)
    (hg : (s.enter.register key).Grows s') (hkey : key.position? s = none)
    (hf : Finish cx s key s' s'') : s''.Aliased cx.facts := by
  cases hf with
  | asIs => exact ha
  | aliased symbol source _ hleads hfind =>
    have hown : s'.IsMember (some symbol) ⟨s.members.size⟩ :=
      hg.members.find? _ _ (Registry.find?_push_self hkey {})
    exact ha.copied hs (.inl ⟨symbol, rfl, hleads, hown, hfind⟩) hown.keyed.hasMember

end Store.Aliased

/-! ## 3. Runs -/

theorem Store.Aliased.invariant {cx : Context} : Store.Invariant cx fun s => s.Aliased cx.facts where
  change := fun hs ha hc => ha.change hs hc
  register := fun hs _ ha => ha.mono hs (Store.grows_enter_register ..) Store.copies_register
  finish := fun hs hkey hg ha hend => ha.finish hs hg hkey hend
  -- the end of a request makes copies again, and no new ones
  leave := fun hs ha => ha.mono hs (Store.grows_leave _) Store.copies_leave
  -- to record a finished filling changes neither the copies nor the members
  completed := fun _ ha d hd => (ha d hd).imp
    (fun ⟨symbol, hd⟩ => ⟨symbol, hd.adjust, hd.leads, hd.target, hd.source⟩)
    fun hd => ⟨hd.adjust, hd.target⟩

/-- **A run copies for aliases and views only.** -/
theorem Trace.aliased {cx : Context} {n : Nat} {c : Scope} {s s' : Store} {o : Option Fault}
    (h : Trace cx n c s o s') (hs : s.Sound) (ha : s.Aliased cx.facts) : s'.Aliased cx.facts :=
  h.invariant Store.Aliased.invariant hs ha

end ApiReference
