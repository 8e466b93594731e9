/-
  How deep fillings nest.

  A filling begins with the registration of a key that had no record, so the number of keys without a
  record bounds the nesting.  A call stack that holds as many fillings holds every request, and a larger
  one makes no difference.

  1. `Facts.keys`, `Store.unregistered` -- the keys of the facts, and how many have no record;
  2. `Trace.rebound`     -- a run nests no deeper than there are keys without a record;
     `Trace.ne_endless`  -- a run with that bound does not run out of call stack;
  3. `Build.EndsWithin`  -- what a request does on a call stack of any size;
  4. `Context.HasRoom`   -- the call stack of the host holds every request.
-/
import ApiReference.Proofs.Build.Requests
import ApiReference.Proofs.Build.Agree
import Mathlib.Data.Finset.Card

namespace ApiReference

/-! ## 1. Keys without a record -/

/-- **The keys that can be registered**: declared symbols and types, units, the missing symbol, the
    missing type and the error type. -/
def Facts.keys (f : Facts) : Finset Key :=
  (Key.member none :: .type none :: .type (some .error) ::
    (f.symbols.map (fun e => Key.member (some ⟨e.1⟩)) ++
      f.types.map (fun e => Key.type (some (.known ⟨e.1⟩))) ++
      (List.range f.units.length).map Key.unit)).toFinset

theorem Key.Declared.mem_keys {f : Facts} {key : Key} (h : key.Declared f) : key ∈ f.keys := by
  simp only [Facts.keys, List.mem_toFinset, List.mem_cons, List.mem_append, List.mem_map,
    List.mem_range]
  -- the keys of missing ones come first, then those of the tables and the units
  cases key with
  | member k =>
    cases k with
    | none => exact .inl rfl
    | some s =>
      obtain ⟨e, he, hs⟩ := List.mem_map.1 (h s rfl)
      exact .inr (.inr (.inr (.inl (.inl ⟨e, he, by rw [hs]⟩))))
  | type k =>
    cases k with
    | none => exact .inr (.inl rfl)
    | some t =>
      cases t with
      | error => exact .inr (.inr (.inl rfl))
      | known t =>
        obtain ⟨e, he, hs⟩ := List.mem_map.1 (h t rfl)
        exact .inr (.inr (.inr (.inl (.inr ⟨e, he, by rw [hs]⟩))))
  | unit i =>
    obtain ⟨u, hu, -⟩ := h
    exact .inr (.inr (.inr (.inr ⟨i, (List.getElem?_eq_some_iff.1 hu).1, rfl⟩)))

/-- There are no more keys than symbols, types and units, and the three of missing ones. -/
theorem Facts.card_keys (f : Facts) :
    f.keys.card ≤ f.symbols.length + f.types.length + f.units.length + 3 := by
  refine Nat.le_trans (List.toFinset_card_le _) ?_
  simp only [List.length_cons, List.length_append, List.length_map, List.length_range]
  omega

/-- **How many keys have no record yet.** -/
def Store.unregistered (s : Store) (f : Facts) : Nat :=
  (f.keys.filter fun k => k.position? s = none).card

namespace Store

variable {f : Facts} {s s' : Store}

theorem unregistered_le (s : Store) (f : Facts) :
    s.unregistered f ≤ f.symbols.length + f.types.length + f.units.length + 3 :=
  Nat.le_trans (Finset.card_filter_le ..) f.card_keys

theorem Grows.unregistered_le (hg : s.Grows s') : s'.unregistered f ≤ s.unregistered f := by
  refine Finset.card_le_card fun k hk => ?_
  rw [Finset.mem_filter] at hk ⊢
  exact ⟨hk.1, hg.position?_eq_none hk.2⟩

/-- **A registration uses up a key.** -/
theorem unregistered_register {key : Key} (hdecl : key.Declared f) (hk : key.position? s = none) :
    (s.enter.register key).unregistered f < s.unregistered f := by
  refine Finset.card_lt_card ⟨fun k hk' => ?_, fun hsub => ?_⟩
  · rw [Finset.mem_filter] at hk' ⊢
    exact ⟨hk'.1, (grows_enter_register s key).position?_eq_none hk'.2⟩
  · have hmem : key ∈ f.keys.filter fun k => k.position? s = none :=
      Finset.mem_filter.2 ⟨hdecl.mem_keys, hk⟩
    exact position?_register hk (Finset.mem_filter.1 (hsub hmem)).2

end Store

/-! ## 2. Runs -/

/-- **A run nests no deeper than there are keys without a record**, if its own bound allows as many. -/
theorem Trace.rebound {cx : Context} {n m : Nat} {c : Scope} {s s' : Store} {o : Option Fault}
    (h : Trace cx n c s o s') (hcalm : s.Calm) (hn : s.unregistered cx.facts ≤ n)
    (hm : s.unregistered cx.facts ≤ m) : Trace cx m c s o s' := by
  induction h generalizing m with
  | done => exact .done
  | fault f hf => exact .fault f hf
  | change hc _ ih =>
    have hle := (Kept.of_change hc).grows.unregistered_le (f := cx.facts)
    exact .change hc (ih (hc.calm hcalm) (Nat.le_trans hle hn) (Nat.le_trans hle hm))
  | cut key hkey hdecl => exact absurd (Store.unregistered_register hdecl hkey) (by omega)
  | fail key f hkey hdecl _ ih =>
    have hlt := Store.unregistered_register hdecl hkey
    obtain ⟨m, rfl⟩ : ∃ k, m = k + 1 := ⟨m - 1, by omega⟩
    exact .fail key f hkey hdecl (ih (Store.calm_register _ key) (by omega) (by omega))
  | @fill n c s s₁ s₂ s₃ o key hkey hdecl hunit hrun hend hdone _ ih ihrest =>
    have hlt := Store.unregistered_register hdecl hkey
    obtain ⟨m, rfl⟩ : ∃ k, m = k + 1 := ⟨m - 1, by omega⟩
    -- what comes after the filling has no more keys left than there were before it
    have hk := Kept.of_filled (c := c) hcalm hunit (hrun.kept (Store.calm_register _ key)).1 hend
    have hle := hk.grows.unregistered_le (f := cx.facts)
    refine .fill key hkey hdecl hunit (ih (Store.calm_register _ key) (by omega) (by omega)) hend hdone ?_
    exact ihrest ((Store.calm_leave _).completed _) (Nat.le_trans hle hn) (Nat.le_trans hle hm)

/-- **A run whose bound is the number of keys without a record is not cut**, and neither is a walk along
    base types that fits. -/
theorem Trace.ne_endless {cx : Context} {n : Nat} {c : Scope} {s s' : Store} {o : Option Fault}
    (h : Trace cx n c s o s') (hfit : cx.WalksFit) (hcalm : s.Calm)
    (hn : s.unregistered cx.facts ≤ n) : o ≠ some .endless := by
  induction h with
  | done => exact fun e => nomatch e
  | fault f hf =>
    intro e
    cases e
    exact hf rfl hfit
  | change hc _ ih =>
    exact ih (hc.calm hcalm) (Nat.le_trans (Kept.of_change hc).grows.unregistered_le hn)
  | cut key hkey hdecl => exact absurd (Store.unregistered_register hdecl hkey) (by omega)
  | fail key f hkey hdecl _ ih =>
    have hlt := Store.unregistered_register hdecl hkey
    exact ih (Store.calm_register _ key) (by omega)
  | @fill n c s s₁ s₂ s₃ o key hkey hdecl hunit hrun hend _ _ _ ih =>
    have hk := Kept.of_filled (c := c) hcalm hunit (hrun.kept (Store.calm_register _ key)).1 hend
    exact ih ((Store.calm_leave _).completed _) (Nat.le_trans hk.grows.unregistered_le hn)

/-- The run of a build, whatever its outcome. -/
theorem Runs.trace {α : Type} {cx : Context} {n : Nat} {c : Scope} {s : Store} {x : Build α}
    {Q : α → Store → Prop} (hx : Runs cx n c s x Q) (hs : s.Sound) (hc : c.Fits s) :
    ∃ o, Trace cx n c s o (x.run s).2 ∧ ∀ f, (x.run s).1 = .error f → o = some f := by
  have hrun := hx hs hc
  rcases hr : x.run s with ⟨result, s'⟩
  rw [hr] at hrun
  cases result with
  | ok a => exact ⟨none, hrun.1, fun f e => nomatch e⟩
  | error f => exact ⟨some f, hrun, fun g e => congrArg some (Except.error.inj e)⟩

/-- A build that is a run with a large enough bound does not run out of call stack. -/
theorem Runs.ne_endless {α : Type} {cx : Context} {n : Nat} {c : Scope} {s : Store} {x : Build α}
    {Q : α → Store → Prop} (hx : Runs cx n c s x Q) (hfit : cx.WalksFit) (hs : s.Sound)
    (hc : c.Fits s) (hn : s.unregistered cx.facts ≤ n) : (x.run s).1 ≠ .error .endless := by
  obtain ⟨o, hrun, ho⟩ := hx.trace hs hc
  exact fun e => hrun.ne_endless hfit hs.calm hn (ho _ e)

/-! ## 3. Any call stack -/

namespace Build

/-- **What a build does on call stacks of all sizes**, given a number of keys without a record.  All it
    does is writes and fillings, each of a key that had no record, nested no deeper than that number.  A
    stack that holds as many fillings, and the walks along base types, is never used up, and every such
    stack leads to the same end. -/
structure EndsWithin {α : Type} (cx : Context) (n : Nat) (s : Store) (x : (room : Nat) → Build α) :
    Prop where
  nests : ∀ room, ∃ depth ≤ n, ∃ o, Trace cx depth (Scope.outer s) s o ((x room).run s).2
  ends : cx.WalksFit → ∀ room, n ≤ room → ((x room).run s).1 ≠ .error .endless
  same : cx.WalksFit → ∀ room, n ≤ room → (x room).run s = (x n).run s

variable {cx : Context} {s : Store}

/-- **The number of keys without a record bounds the nesting.** -/
theorem endsWithin_of_runs {α : Type} {x : Nat → Build α} {Q : α → Store → Prop} (hs : s.Sound)
    (hruns : ∀ n, Runs cx n (Scope.outer s) s (x n) Q)
    (hagree : ∀ n m, n ≤ m → Agree (x n) (x m)) :
    EndsWithin cx (s.unregistered cx.facts) s x := by
  have hfits := Scope.fits_outer s
  refine ⟨fun room => ?_, fun hfit room hroom => (hruns room).ne_endless hfit hs hfits hroom,
    fun hfit room hroom => ?_⟩
  · obtain ⟨o, hrun, -⟩ := (hruns room).trace hs hfits
    rcases Nat.le_total room (s.unregistered cx.facts) with h | h
    · exact ⟨room, h, o, hrun⟩
    · exact ⟨_, Nat.le_refl _, o, hrun.rebound hs.calm h (Nat.le_refl _)⟩
  · exact hagree _ room hroom s ((hruns _).ne_endless hfit hs hfits (Nat.le_refl _))

variable (hf : cx.facts.Closed) (hs : s.Sound)
include hf hs

theorem member_endsWithin {key : Option SymbolId} (hkey : cx.facts.SymbolKey key) :
    EndsWithin cx (s.unregistered cx.facts) s fun room => (requestsWithin cx room).member key :=
  endsWithin_of_runs hs (fun n => (lawful_requestsWithin hf n).member _ s key hkey)
    fun _ _ h => (agree_requestsWithin h).member key

theorem type_endsWithin {key : Option TypeRef} (hkey : cx.facts.TypeKey key) :
    EndsWithin cx (s.unregistered cx.facts) s fun room => (requestsWithin cx room).type key :=
  endsWithin_of_runs hs (fun n => (lawful_requestsWithin hf n).type _ s key hkey)
    fun _ _ h => (agree_requestsWithin h).type key

theorem unit_endsWithin (hd : s.depth = 0) {position : Nat} (hposition : position < cx.facts.units.length) :
    EndsWithin cx (s.unregistered cx.facts) s fun room => unitWithin cx room position :=
  endsWithin_of_runs hs (fun _ => runs_unitWithin hf hd hposition)
    fun _ _ h => agree_unitWithin h position

theorem expand_endsWithin (t : TypeRef) :
    EndsWithin cx (s.unregistered cx.facts) s fun room => expandWithin cx room t :=
  endsWithin_of_runs hs (fun _ => runs_expandWithin hf t) fun _ _ h =>
    (Agree.refl _).bind fun e => (agree_fillUnaliased (agree_requestsWithin h) t e).bind fun _ => .refl _

end Build

/-! ## 4. The call stack of the host -/

/-- **The call stack of the host holds every request** that is made in a store: the walks along base
    types fit, and there is room for a filling of each key that has no record. -/
def Context.HasRoom (cx : Context) (s : Store) : Prop :=
  cx.WalksFit ∧ s.unregistered cx.facts ≤ cx.host.fillings

/-- There is room later on, when fewer keys are left. -/
theorem Context.HasRoom.later {cx : Context} {s s' : Store} (h : cx.HasRoom s) (hg : s.Grows s') :
    cx.HasRoom s' :=
  ⟨h.1, Nat.le_trans hg.unregistered_le h.2⟩

end ApiReference
