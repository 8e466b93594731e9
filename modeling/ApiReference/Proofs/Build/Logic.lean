/-
  Reasoning about builds.

  `Runs` says of a build, in a given scope and store, that all it does is a run and that its result has
  a property.  There is one rule for each way of putting builds together, so a filling is followed
  through its text.  Most of a filling asks for other records, which leaves those that are there as
  they are (`Asks`), or adds fields to its own.

  1. `Runs`             -- the statement, and how it is put together;
  2. reading and writing;
  3. `Moves`, `Asks`    -- builds that keep something of the store they begin in;
  4. smaller scopes     -- asking, and filling one of the new records;
  5. new records        -- making, copying and completing them;
  6. `Ends`             -- a filling with its end;
  7. requests           -- what a request does, given what its filling does.
-/
import ApiReference.Proofs.Build.Listed
import ApiReference.Proofs.Regime
import Mathlib.Order.Defs.Unbundled

namespace ApiReference

/-! ## 1. Runs of builds -/

/-- What an outcome must be: a run to the store left, and a result with `Q`. -/
def Outcome {α : Type} (cx : Context) (n : Nat) (c : Scope) (s : Store) (Q : α → Store → Prop) :
    Except Fault α × Store → Prop
  | (.ok a, s') => Trace cx n c s none s' ∧ Q a s'
  | (.error f, s') => Trace cx n c s (some f) s'

/-- **The build is a run in its scope**, and a result has `Q`. -/
def Runs {α : Type} (cx : Context) (n : Nat) (c : Scope) (s : Store) (x : Build α)
    (Q : α → Store → Prop) : Prop :=
  s.Sound → c.Fits s → Outcome cx n c s Q (x.run s)

/-- **What a point of a build keeps of an earlier one.** -/
structure Scope.Onward (c : Scope) (s s' : Store) : Prop extends Kept c s s' where
  sound : s.Sound
  upholds : Store.Upholds (c.settled s) s s'
  settled : c.settled s ≤ c.settled s'

theorem Kept.onward {c : Scope} {s s' : Store} (hk : Kept c s s') (hs : s.Sound) (hc : c.Fits s) :
    c.Onward s s' :=
  { hk with sound := hs, upholds := hk.upholds hs, settled := hc.settled_mono hk.grows.members.size }

theorem Scope.Onward.extends {c : Scope} {s s' : Store} (h : c.Onward s s') :
    s.toModel.Extends s'.toModel := h.grows.extends

theorem Scope.Onward.trans {c : Scope} {s s' s'' : Store} (h : c.Onward s s') (h' : c.Onward s' s'') :
    c.Onward s s'' :=
  { h.toKept.trans h'.toKept with
    sound := h.sound
    upholds := (h.toKept.trans h'.toKept).upholds h.sound
    settled := Nat.le_trans h.settled h'.settled }

/-- No copy is made onto a record that was there. -/
theorem Scope.Onward.original {c : Scope} {s s' : Store} (h : c.Onward s s') {x : MemberHandle}
    (hx : s.HasMember x) (ho : s.Original x) : s'.Original x := by
  obtain ⟨new, hnew, htarget⟩ := h.copies
  intro p hp
  rw [hnew] at hp
  rcases List.mem_append.1 hp with hp | hp
  · exact ho p hp
  · rintro rfl
    exact absurd hx (Nat.not_lt.2 (htarget p hp))

namespace Runs

variable {cx : Context} {n : Nat} {c : Scope} {s : Store} {α β : Type}
variable {P : α → Store → Prop} {Q : β → Store → Prop}

theorem pure {a : α} (h : P a s) : Runs cx n c s (Pure.pure a) P := fun _ _ => ⟨.done, h⟩

theorem throw {f : Fault} (h : f ≠ .endless) : Runs cx n c s (throw f : Build α) P :=
  fun _ _ => .fault f fun e => absurd e h

/-- The store is sound, and the scope fits it. -/
theorem sound {x : Build α} (h : s.Sound → c.Fits s → Runs cx n c s x P) : Runs cx n c s x P :=
  fun hs hc => h hs hc hs hc

theorem mono {x : Build α} {P' : α → Store → Prop} (hx : Runs cx n c s x P)
    (h : ∀ a s', c.Onward s s' → P a s' → P' a s') : Runs cx n c s x P' := by
  intro hs hc
  have hrun := hx hs hc
  rcases hr : x.run s with ⟨result, s'⟩
  rw [hr] at hrun
  cases result with
  | ok a => exact ⟨hrun.1, h a s' ((hrun.1.kept hs.calm).1.onward hs hc) hrun.2⟩
  | error f => exact hrun

theorem branch {p : Prop} [Decidable p] {x y : Build α} (hx : p → Runs cx n c s x P)
    (hy : ¬ p → Runs cx n c s y P) : Runs cx n c s (if p then x else y) P := by
  by_cases hp : p
  · rw [if_pos hp]
    exact hx hp
  · rw [if_neg hp]
    exact hy hp

/-- **One build after another.** -/
theorem bind {x : Build α} {g : α → Build β} (hx : Runs cx n c s x P)
    (hg : ∀ a s', c.Onward s s' → P a s' → Runs cx n c s' (g a) Q) :
    Runs cx n c s (x >>= g) Q := by
  intro hs hc
  have hrun := hx hs hc
  rcases hr : x.run s with ⟨result, s'⟩
  rw [hr] at hrun
  cases result with
  | error f =>
    rw [run_bind_error hr]
    exact hrun
  | ok a =>
    obtain ⟨hrun, hp⟩ := hrun
    rw [run_bind_ok hr]
    obtain ⟨hk, -⟩ := hrun.kept hs.calm
    have hrest := hg a s' (hk.onward hs hc) hp (hrun.sound hs) (hc.mono hk)
    rcases hr' : (g a).run s' with ⟨result', s''⟩
    rw [hr'] at hrest
    cases result' with
    | ok b => exact ⟨hrun.append hrest.1, hrest.2⟩
    | error f => exact hrun.append hrest

/-! ## 2. Reading and writing -/

/-- A question to the facts; what is left may depend on the answer. -/
theorem ask {x : Except Fault α} {R : α → Prop} {g : α → Build β}
    (hgives : Gives (¬ cx.WalksFit) R x)
    (hg : ∀ a, x = .ok a → R a → Runs cx n c s (g a) Q) :
    Runs cx n c s (Build.orFault x >>= g) Q := by
  cases x with
  | ok a => exact fun hs hc => hg a rfl hgives hs hc
  | error f => exact fun _ _ => .fault f hgives

theorem readMember {h : MemberHandle} {g : Member → Build β} (hg : Runs cx n c s (g (s.member h)) Q) :
    Runs cx n c s (Build.member h >>= g) Q := hg

theorem readType {h : TypeHandle} {g : TypeExpr → Build β} (hg : Runs cx n c s (g (s.type h)) Q) :
    Runs cx n c s (Build.type h >>= g) Q := hg

/-- A change of the store that a filling may make. -/
theorem change {f : Store → Store} (h : s.Sound → c.Fits s → Change cx c s (f s)) :
    Runs cx n c s (modify f : Build PUnit) (fun _ s' => s' = f s) :=
  fun hs hc => ⟨.change (h hs hc) .done, rfl⟩

/-- A change of the member that is filled; what is written may depend on the store.  It may get its
    level only before there is another member, it may list members that nobody listed, and override the
    record of a symbol. -/
theorem writeMember {h : MemberHandle} {f : Store → Member → Member} (hm : c.member = some h)
    (hf : s.Sound → (s.member h).Refers s.toModel → (f s (s.member h)).Refers s.toModel)
    (hstanding : (f s (s.member h)).standing = (s.member h).standing ∨
      (h.index + 1 = s.members.size ∧ cx.facts.Described (f s (s.member h))))
    (hlists : c.MayList s h (f s (s.member h))) (hlinks : s.MayLink h (f s (s.member h))) :
    Runs cx n c s (modify fun s => { s with members := s.members.modify h.index (f s) })
      (fun _ s' => s' = s.setMember h (f s (s.member h))) := by
  have hwrite : ({ s with members := s.members.modify h.index (f s) } : Store) =
      s.setMember h (f s (s.member h)) := by
    rw [Registry.modify_const]
    rfl
  refine (change fun hs hc => ?_).mono fun _ s' _ he => he.trans hwrite
  rw [hwrite]
  exact .member h _ (hc.ownsMember hm) (hf hs (hs.member h)) hstanding hlists hlinks

/-- A field of the member that is filled; it places no member, and is neither a list nor a link. -/
theorem modifyMember {h : MemberHandle} {f : Member → Member} (hm : c.member = some h)
    (hstanding : ∀ m, (f m).standing = m.standing) (hmembers : ∀ m, (f m).members = m.members)
    (hoverrides : ∀ m, (f m).overrides = m.overrides)
    (hf : ∀ m : Member, m.Refers s.toModel → (f m).Refers s.toModel) :
    Runs cx n c s (Build.modifyMember h f) (fun _ s' => s' = s.setMember h (f (s.member h))) :=
  writeMember (f := fun _ => f) hm (fun _ => hf _) (.inl (hstanding _))
    (Scope.mayList_of_members (hmembers _)) (Store.mayLink_of_overrides (hoverrides _))

/-- What is known of a build in two ways. -/
theorem both {x : Build α} {P' : α → Store → Prop} (hx : Runs cx n c s x P) (hx' : Runs cx n c s x P') :
    Runs cx n c s x fun a s' => P a s' ∧ P' a s' := by
  intro hs hc
  have hrun := hx hs hc
  have hrun' := hx' hs hc
  rcases hr : x.run s with ⟨result, s'⟩
  rw [hr] at hrun hrun'
  cases result with
  | ok a => exact ⟨hrun.1, hrun.2, hrun'.2⟩
  | error f => exact hrun

/-- What the build did is known afterwards. -/
theorem ran {x : Build α} (hx : Runs cx n c s x P) :
    Runs cx n c s x fun a s' => x.run s = (.ok a, s') ∧ P a s' := by
  intro hs hc
  have hrun := hx hs hc
  rcases hr : x.run s with ⟨result, s'⟩
  rw [hr] at hrun
  cases result with
  | ok a => exact ⟨hrun.1, rfl, hrun.2⟩
  | error f => exact hrun

/-- A build that does what another does. -/
theorem congr {x y : Build α} (h : x.run s = y.run s) (hy : Runs cx n c s y P) : Runs cx n c s x P := by
  intro hs hc
  rw [h]
  exact hy hs hc

/-- What was just written is read. -/
theorem writeRead {h : MemberHandle} {f : Member → Member} {g : Member → Build β} (hh : s.HasMember h)
    (hg : Runs cx n c s (Build.modifyMember h f >>= fun _ => g (f (s.member h))) Q) :
    Runs cx n c s (Build.modifyMember h f >>= fun _ => Build.member h >>= g) Q := by
  refine congr ?_ hg
  have hwritten : (s.members.modify h.index f).recordAt h.index = f (s.member h) :=
    (Registry.recordAt_modify _ _ hh _).trans (if_pos rfl)
  show (g ((s.members.modify h.index f).recordAt h.index)).run _ = (g (f (s.member h))).run _
  rw [hwritten]

/-- Two writes at once. -/
theorem writeTwice {h : MemberHandle} {f g : Member → Member} {x : Build β}
    (hx : Runs cx n c s (Build.modifyMember h (fun m => g (f m)) >>= fun _ => x) Q) :
    Runs cx n c s (Build.modifyMember h f >>= fun _ => Build.modifyMember h g >>= fun _ => x) Q := by
  refine congr ?_ hx
  show x.run { s with members := (s.members.modify h.index f).modify h.index g } =
    x.run { s with members := s.members.modify h.index (fun m => g (f m)) }
  rw [Registry.modify_modify]

/-- A change of the type record that is filled; it works nothing out. -/
theorem writeType {h : TypeHandle} {f : TypeExpr → TypeExpr} (ht : c.type = some h)
    (hf : (s.type h).Refers s.toModel → (f (s.type h)).Refers s.toModel)
    (hforced : s.Unforced (f (s.type h))) :
    Runs cx n c s (Build.modifyType h f) (fun _ s' => s' = s.setType h (f (s.type h))) := by
  have hwrite : ({ s with types := s.types.modify h.index f } : Store) =
      s.setType h (f (s.type h)) := by
    rw [Registry.modify_const]
    rfl
  refine (change fun hs hc => ?_).mono fun _ s' _ he => he.trans hwrite
  rw [hwrite]
  exact .type h _ (hc.ownsType ht) (hf (hs.type h)) hforced

/-- The record is followed from write to write. -/
theorem becomes {h : TypeHandle} {e : TypeExpr} {f : TypeExpr → TypeExpr} (ht : c.type = some h)
    (he : s.type h = e) (hknows : (f e).Knows = e.Knows)
    (hf : e.Refers s.toModel → (f e).Refers s.toModel) :
    Runs cx n c s (Build.modifyType h f) (fun _ s' => s'.type h = f e) := by
  subst he
  have hkept : s.Unforced (f (s.type h)) := fun memo hmemo => ⟨h, by rwa [hknows] at hmemo⟩
  refine .sound fun _ hc => (writeType ht hf hkept).mono fun _ s' _ hs' => ?_
  rw [hs', Store.type_setType_self (hc.type h ht).1]

/-- A change of the unit that is filled. -/
theorem writeUnit {h : UnitHandle} {f : Store → UnitRecord → UnitRecord} (hu : c.unit = some h)
    (hf : (s.unit h).Refers s.toModel → (f s (s.unit h)).Refers s.toModel) :
    Runs cx n c s (modify fun s => { s with units := s.units.modify h.index (f s) })
      (fun _ s' => s' = s.setUnit h (f s (s.unit h))) := by
  have hwrite : ({ s with units := s.units.modify h.index (f s) } : Store) =
      s.setUnit h (f s (s.unit h)) := by
    rw [Registry.modify_const]
    rfl
  refine (change fun hs hc => ?_).mono fun _ s' _ he => he.trans hwrite
  rw [hwrite]
  exact .unit h _ (hc.ownsUnit hu) (hf (hs.unit h))

end Runs

/-! ## 3. Builds that keep something -/

/-- **A build that keeps `R` of the store it begins in**, and a result has `Q`. -/
def Moves {α : Type} (R : Store → Store → Prop) (cx : Context) (n : Nat) (c : Scope) (s : Store)
    (x : Build α) (Q : α → Store → Prop) : Prop :=
  Runs cx n c s x fun a s' => R s s' ∧ Q a s'

namespace Moves

variable {R : Store → Store → Prop} [IsPreorder Store R]
variable {cx : Context} {n : Nat} {c : Scope} {s : Store} {α β : Type}
variable {P : α → Store → Prop} {Q : β → Store → Prop}

theorem pure {a : α} (h : P a s) : Moves R cx n c s (Pure.pure a) P := Runs.pure ⟨refl s, h⟩

omit [IsPreorder Store R] in
theorem mono {x : Build α} {P' : α → Store → Prop} (hx : Moves R cx n c s x P)
    (h : ∀ a s', c.Onward s s' → P a s' → P' a s') : Moves R cx n c s x P' :=
  Runs.mono hx fun a s' ho hp => ⟨hp.1, h a s' ho hp.2⟩

theorem bind {x : Build α} {g : α → Build β} (hx : Moves R cx n c s x P)
    (hg : ∀ a s', c.Onward s s' → P a s' → Moves R cx n c s' (g a) Q) :
    Moves R cx n c s (x >>= g) Q :=
  Runs.bind hx fun a s' ho hp =>
    Runs.mono (hg a s' ho hp.2) fun _ _ _ hq => ⟨IsTrans.trans _ _ _ hp.1 hq.1, hq.2⟩

omit [IsPreorder Store R] in
/-- What is kept is known afterwards. -/
theorem noting {x : Build α} (hx : Moves R cx n c s x P) :
    Moves R cx n c s x (fun a s' => R s s' ∧ P a s') :=
  Runs.mono hx fun _ _ _ hp => ⟨hp.1, hp⟩

/-- **One build for each element of a list.** -/
theorem mapM {T : α → β → Store → Prop} {xs : List α} {g : α → Build β}
    (hmono : ∀ a b s s', c.Onward s s' → T a b s → T a b s')
    (hg : ∀ a ∈ xs, ∀ s', Moves R cx n c s' (g a) (T a)) :
    Moves R cx n c s (xs.mapM g) (fun bs s' => List.Forall₂ (fun a b => T a b s') xs bs) := by
  induction xs generalizing s with
  | nil => exact .pure .nil
  | cons a r ih =>
    rw [List.mapM_cons]
    refine (hg a List.mem_cons_self s).bind fun b s' _ hb => ?_
    refine (ih fun x hx => hg x (List.mem_cons_of_mem a hx)).bind fun bs s'' ho hbs => .pure ?_
    exact .cons (hmono a b s' s'' ho hb) hbs

end Moves

/-- Every record that was there is as it was, and in no new list. -/
structure Store.Framed (s s' : Store) : Prop where
  grows : s.Grows s'
  member : ∀ h, s.HasMember h → s'.member h = s.member h
  type : ∀ h, s.HasType h → s'.type h = s.type h
  lists : s.ListsKept s.members.size s'

instance : IsPreorder Store Store.Framed where
  refl s := ⟨.refl s, fun _ _ => rfl, fun _ _ => rfl, .refl _ _⟩
  trans _ _ _ h h' :=
    ⟨h.grows.trans h'.grows,
      fun x hx => (h'.member x (hx.mono h.grows.extends)).trans (h.member x hx),
      fun x hx => (h'.type x (hx.mono h.grows.extends)).trans (h.type x hx),
      h.lists.trans h'.grows (h'.lists.le h.grows.members.size)⟩

/-- **A build that only asks**: it leaves the records that are there as they are. -/
abbrev Asks {α : Type} := @Moves α Store.Framed

/-- What is asked for leaves the type record that is filled alone. -/
theorem Asks.beside {cx : Context} {n : Nat} {c : Scope} {s : Store} {α : Type} {x : Build α}
    {P : α → Store → Prop} {h : TypeHandle} {e : TypeExpr} (hx : Asks cx n c s x P)
    (ht : c.type = some h) (he : s.type h = e) :
    Runs cx n c s x (fun a s' => s'.type h = e ∧ P a s') := by
  refine .sound fun _ hc => Runs.mono hx fun a s' _ hp => ⟨?_, hp.2⟩
  rw [hp.1.type h (hc.type h ht).1, he]

/-! ## 4. Smaller scopes -/

namespace Scope

/-- The scope that owns one of the members that are there. -/
def onlyMember (s : Store) (h : MemberHandle) : Scope := { outer s with member := some h }

/-- The scope that owns one of the type records that are there. -/
def onlyType (s : Store) (h : TypeHandle) : Scope := { outer s with type := some h }

/-- A scope that owns no more than another. -/
structure Under (c' c : Scope) (s : Store) : Prop where
  member : ∀ h, c'.OwnsMember s h → c.OwnsMember s h
  type : ∀ h, c'.OwnsType s h → c.OwnsType s h
  unit : ∀ h, c'.unit = some h → c.unit = some h
  loose : ∀ x, c'.Loose s x → c.Loose s x
  members : c.members ≤ c'.members

variable {c : Scope} {s s' : Store}

theorem fits_outer (s : Store) : (outer s).Fits s where
  member := fun _ hh => nomatch hh
  inside := fun hn => absurd rfl hn
  type := fun _ hh => nomatch hh
  unit := fun _ hh => nomatch hh
  members := Nat.le_refl _
  types := Nat.le_refl _

theorem Loose.keyed {c : Scope} {s s' : Store} {x : RecordHandle} (h : c.Loose s x)
    (hg : s.Grows s') (hx : x ∉ s'.filled) : c.Loose s' x := by
  cases x with
  | member y => exact ⟨h.1.mono hg.extends, h.2.1, (hg.members.keyAt _ h.1).trans h.2.2.1, hx⟩
  | type y => exact ⟨h.1.mono hg.extends, h.2.1, (hg.types.keyAt _ h.1).trans h.2.2.1, hx⟩
  | unit y => exact h

/-- Who asks owns new records only. -/
theorem under_outer (hc : c.Fits s) (s' : Store) : (outer s).Under c s' where
  member := fun h ⟨hd, hopen, hown⟩ => ⟨hd, hopen, hown.elim (fun e => nomatch e) fun hnew =>
    .inr ⟨Nat.le_trans hc.members hnew.1, hnew.2⟩⟩
  type := fun h ⟨hopen, hown⟩ => ⟨hopen, hown.elim (fun e => nomatch e) fun hnew =>
    .inr ⟨Nat.le_trans hc.types hnew.1, hnew.2⟩⟩
  unit := fun _ hh => nomatch hh
  loose := by
    intro x hx
    cases x with
    | member h => exact ⟨hx.1, Nat.le_trans hc.members hx.2.1, hx.2.2⟩
    | type h => exact ⟨hx.1, Nat.le_trans hc.types hx.2.1, hx.2.2⟩
    | unit h => exact hx
  members := hc.members

theorem under_onlyMember (hc : c.Fits s) {h : MemberHandle} (hl : c.Loose s (.member h))
    (hg : s.Grows s') : (onlyMember s h).Under c s' := by
  have hu := under_outer hc s'
  refine ⟨fun y hy => ?_, hu.type, hu.unit, hu.loose, hu.members⟩
  obtain ⟨hd, hopen, he | hnew⟩ := hy
  · cases he
    exact ⟨hd, hopen, .inr ⟨hl.2.1, (hg.members.keyAt _ hl.1).trans hl.2.2.1⟩⟩
  · exact hu.member y ⟨hd, hopen, .inr hnew⟩

theorem under_onlyType (hc : c.Fits s) {h : TypeHandle} (hl : c.Loose s (.type h))
    (hg : s.Grows s') : (onlyType s h).Under c s' := by
  have hu := under_outer hc s'
  refine ⟨hu.member, fun y hy => ?_, hu.unit, hu.loose, hu.members⟩
  obtain ⟨hopen, he | hnew⟩ := hy
  · cases he
    exact ⟨hopen, .inr ⟨hl.2.1, (hg.types.keyAt _ hl.1).trans hl.2.2.1⟩⟩
  · exact hu.type y ⟨hopen, .inr hnew⟩

end Scope

theorem Change.widen {cx : Context} {c c' : Scope} {s s' : Store} (hu : c'.Under c s)
    (h : Change cx c' s s') : Change cx c s s' := by
  cases h with
  | member h r hown hr hstanding hlists hlinks =>
    refine .member h r (hu.member h hown) hr hstanding (fun v hv => ?_) hlinks
    exact (hlists v hv).imp id (Or.imp id fun hnew => ⟨Nat.le_trans hu.members hnew.1, hnew.2⟩)
  | type h r hown hr hforced => exact .type h r (hu.type h hown) hr hforced
  | unit h r hown hr => exact .unit h r ⟨hown.1, hu.unit h hown.2⟩ hr
  | newMember => exact .newMember
  | newType => exact .newType
  | view source adjust k hd hk ha hraw => exact .view source adjust k hd hk ha hraw
  | complete x hx hdone => exact .complete x (hu.loose x hx) hdone

/-- **A run in a smaller scope is a run in a larger one.** -/
theorem Trace.widen {cx : Context} {n : Nat} {c c' : Scope} {s s' : Store} {o : Option Fault}
    (h : Trace cx n c' s o s') (hcalm : s.Calm) (hu : ∀ s', s.Grows s' → c'.Under c s') :
    Trace cx n c s o s' := by
  induction h with
  | done => exact .done
  | fault f hf => exact .fault f hf
  | change hc _ ih =>
    have hk := Kept.of_change hc
    refine .change (hc.widen (hu _ (.refl _))) (ih (hc.calm hcalm) fun s₂ hg => ?_)
    exact hu s₂ (hk.grows.trans hg)
  | cut key hkey hdecl => exact .cut key hkey hdecl
  | fail key f hkey hdecl hrun => exact .fail key f hkey hdecl hrun
  | fill key hkey hdecl hunit hrun hend hdone _ _ ih =>
    have hk := Kept.of_filled (c := c') hcalm hunit (hrun.kept (Store.calm_register _ key)).1 hend
    refine .fill key hkey hdecl hunit hrun hend hdone
      (ih ((Store.calm_leave _).completed _) fun s₂ hg => ?_)
    exact hu s₂ (hk.grows.trans hg)

namespace Runs

variable {cx : Context} {n : Nat} {c : Scope} {s : Store} {α : Type} {Q : α → Store → Prop}

/-- What runs in a smaller scope runs in a larger one, and keeps what the smaller one does not own. -/
theorem widen (c' : Scope) {x : Build α} (hfit : c.Fits s → c'.Fits s)
    (hu : c.Fits s → ∀ s', s.Grows s' → c'.Under c s') (hx : Runs cx n c' s x Q) :
    Runs cx n c s x (fun a s' => (Kept c' s s' ∧ c'.Fits s' ∧ s.ListsKept c'.members s') ∧ Q a s') := by
  intro hs hc
  have hrun := hx hs (hfit hc)
  rcases hr : x.run s with ⟨result, s'⟩
  rw [hr] at hrun
  cases result with
  | ok a =>
    have hk := (hrun.1.kept hs.calm).1
    exact ⟨hrun.1.widen hs.calm (hu hc),
      ⟨hk, (hfit hc).mono hk, hrun.1.listsKept hs (hfit hc).members⟩, hrun.2⟩
  | error f => exact Trace.widen hrun hs.calm (hu hc)

/-- What is done in the scope of whoever asks leaves the records that are there alone. -/
theorem asks {x : Build α} (hx : Runs cx n (Scope.outer s) s x Q) : Asks cx n c s x Q := by
  refine (widen (Scope.outer s) (fun _ => Scope.fits_outer s)
    (fun hc s' _ => Scope.under_outer hc s') hx).mono fun a s' _ hq => ⟨?_, hq.2⟩
  obtain ⟨⟨hk, -, hlists⟩, -⟩ := hq
  refine ⟨hk.grows, fun h hh => hk.member h hh ?_, fun h hh => hk.type h hh ?_, hlists⟩
  · rintro ⟨-, -, he | ⟨hle, -⟩⟩
    · exact nomatch he
    · exact absurd hh (Nat.not_lt.2 hle)
  · rintro ⟨-, he | ⟨hle, -⟩⟩
    · exact nomatch he
    · exact absurd hh (Nat.not_lt.2 hle)

end Runs

/-- All but one member, and all type records, are as they were. -/
structure Store.Besides (h : MemberHandle) (s s' : Store) : Prop where
  member : ∀ x, s.HasMember x → x ≠ h → s'.member x = s.member x
  type : ∀ x, s.HasType x → s'.type x = s.type x
  lists : s.ListsKept s.members.size s'

/-- All but one type record, and all members, are as they were. -/
structure Store.BesidesType (h : TypeHandle) (s s' : Store) : Prop where
  member : ∀ x, s.HasMember x → s'.member x = s.member x
  type : ∀ x, s.HasType x → x ≠ h → s'.type x = s.type x
  lists : s.ListsKept s.members.size s'

namespace Runs

variable {cx : Context} {n : Nat} {c : Scope} {s : Store} {α : Type} {Q : α → Store → Prop}

/-- **Filling one of the new members** as part of filling another. -/
theorem withinMember {x : Build α} {h : MemberHandle} (hd : 0 < s.depth)
    (hl : c.Loose s (.member h)) (hx : Runs cx n (Scope.onlyMember s h) s x Q) :
    Runs cx n c s x (fun a s' => (s.Besides h s' ∧ c.Loose s' (.member h)) ∧ Q a s') := by
  have hfit : (Scope.onlyMember s h).Fits s := by
    refine { Scope.fits_outer s with member := fun y hy => ?_, inside := fun _ => hd }
    cases hy
    exact ⟨hl.1, hl.1, hl.2.2.2⟩
  refine (widen _ (fun _ => hfit) (fun hc s' hg => Scope.under_onlyMember hc hl hg) hx).mono
    fun a s' _ hq => ⟨⟨⟨fun y hy hne => ?_, fun y hy => ?_, hq.1.2.2⟩, ?_⟩, hq.2⟩
  · refine hq.1.1.member y hy ?_
    rintro ⟨-, -, he | ⟨hle, -⟩⟩
    · cases he
      exact hne rfl
    · exact absurd hy (Nat.not_lt.2 hle)
  · refine hq.1.1.type y hy ?_
    rintro ⟨-, he | ⟨hle, -⟩⟩
    · exact nomatch he
    · exact absurd hy (Nat.not_lt.2 hle)
  · exact hl.keyed hq.1.1.grows (hq.1.2.1.member h rfl).2.2

/-- **Filling one of the new type records.** -/
theorem withinType {x : Build α} {h : TypeHandle} (hl : c.Loose s (.type h))
    (hx : Runs cx n (Scope.onlyType s h) s x Q) :
    Runs cx n c s x (fun a s' => (s.BesidesType h s' ∧ c.Loose s' (.type h)) ∧ Q a s') := by
  have hfit : (Scope.onlyType s h).Fits s := by
    refine { Scope.fits_outer s with type := fun y hy => ?_ }
    cases hy
    exact ⟨hl.1, hl.1, hl.2.2.2⟩
  refine (widen _ (fun _ => hfit) (fun hc s' hg => Scope.under_onlyType hc hl hg) hx).mono
    fun a s' _ hq => ⟨⟨⟨fun y hy => ?_, fun y hy hne => ?_, hq.1.2.2⟩, ?_⟩, hq.2⟩
  · refine hq.1.1.member y hy ?_
    rintro ⟨-, -, he | ⟨hle, -⟩⟩
    · exact nomatch he
    · exact absurd hy (Nat.not_lt.2 hle)
  · refine hq.1.1.type y hy ?_
    rintro ⟨-, he | ⟨hle, -⟩⟩
    · cases he
      exact hne rfl
    · exact absurd hy (Nat.not_lt.2 hle)
  · exact hl.keyed hq.1.1.grows (hq.1.2.1.type h rfl).2.2

/-! ## 5. New records -/

/-- A record of one's own is complete. -/
theorem complete {x : RecordHandle} (hl : c.Loose s x) (hdone : s.Done cx s.members.size s.filled x) :
    Runs cx n c s (Build.complete x) (fun _ s' => s' = s.completed x) :=
  change fun _ _ => .complete x hl hdone

end Runs

/-- A member record that was just made. -/
structure Scope.NewMember (c : Scope) (s : Store) (h : MemberHandle) : Prop where
  loose : c.Loose s (.member h)
  blank : s.member h = {}
  last : h.index + 1 = s.members.size
  original : s.Original h

/-- **A view that was just made**, and that nobody lists so far. -/
structure Store.NewCopy (s : Store) (d : Copy) (s' : Store) : Prop where
  inside : s'.HasMember d.target
  key : s'.members.keyAt d.target.index = none
  copied : d ∈ s'.copies
  new : s.members.size ≤ d.target.index
  unlisted : s'.Unlisted d.target

/-- A type record that was just made. -/
structure Scope.NewType (c : Scope) (s : Store) (h : TypeHandle) : Prop where
  loose : c.Loose s (.type h)
  blank : s.type h = {}

namespace Asks

variable {cx : Context} {n : Nat} {c : Scope} {s : Store}

theorem newMember :
    Asks cx n c s Build.newMember (fun h s' => c.NewMember s' h ∧ s.members.size ≤ h.index) := by
  intro hs hc
  have hsize : (s.addMember none).members.size = s.members.size + 1 := Registry.size_push ..
  have hkept := Kept.of_change (.newMember : Change cx c s (s.addMember none))
  have hframed : s.Framed (s.addMember none) :=
    ⟨hkept.grows, fun h hh => (Registry.recordAt_push ..).trans (if_neg (Nat.ne_of_lt hh)),
      fun _ _ => rfl, .of_spared (.addMember s none)⟩
  refine ⟨.change .newMember .done, hframed, ⟨⟨?_, hc.members, ?_, fun hin => ?_⟩, ?_, hsize.symm, ?_⟩,
    Nat.le_refl _⟩
  · exact Nat.lt_of_lt_of_eq (Nat.lt_succ_self _) hsize.symm
  · exact (Registry.keyAt_push ..).trans (if_pos rfl)
  · exact Nat.lt_irrefl _ (hs.filledMembers _ hin)
  · exact (Registry.recordAt_push ..).trans (if_pos rfl)
  · rintro p hp he
    have hlt : p.target.index < s.members.size := (hs.copies p hp).2.1
    rw [he] at hlt
    exact Nat.lt_irrefl _ hlt

theorem newType :
    Asks cx n c s Build.newType (fun h s' => c.NewType s' h ∧ s.types.size ≤ h.index) := by
  intro hs hc
  have hsize : (s.addType none).types.size = s.types.size + 1 := Registry.size_push ..
  have hkept := Kept.of_change (.newType : Change cx c s (s.addType none))
  have hframed : s.Framed (s.addType none) :=
    ⟨hkept.grows, fun _ _ => rfl,
      fun h hh => (Registry.recordAt_push ..).trans (if_neg (Nat.ne_of_lt hh)),
      .of_spared (.of_eq hkept.grows rfl rfl)⟩
  refine ⟨.change .newType .done, hframed, ⟨⟨?_, hc.types, ?_, fun hin => ?_⟩, ?_⟩, Nat.le_refl _⟩
  · exact Nat.lt_of_lt_of_eq (Nat.lt_succ_self _) hsize.symm
  · exact (Registry.keyAt_push ..).trans (if_pos rfl)
  · exact Nat.lt_irrefl _ (hs.filledTypes _ hin)
  · exact (Registry.recordAt_push ..).trans (if_pos rfl)

/-- **A view**: a new record, an id for it, and the copy. -/
theorem view {k : Option SymbolId} {source : MemberHandle} {id : Build String} {text : String}
    {a : String → Adjust} (hd : 0 < s.depth) (hk : s.members.find? k = some source.index)
    (hid : id.run (s.addMember none) = (.ok text, s.addMember none))
    (ha : (a text).Refers s.toModel) (hraw : ∀ symbol, a text ≠ .withRaw symbol) :
    Asks cx n c s (do
      let v ← Build.newMember
      Build.copyMember source v (a (← id))
      return v) (fun v s' => s.NewCopy ⟨source, v, a text⟩ s') := by
  intro hs hc
  have hchange : Change cx c s _ := Change.view source (a text) k hd hk ha hraw
  have hkept := Kept.of_change hchange
  have hspared : s.Spared ((s.addMember none).copied ⟨source, ⟨s.members.size⟩, a text⟩) :=
    (Store.Spared.addMember s none).trans (.copied _ _)
  have hframed : s.Framed ((s.addMember none).copied ⟨source, ⟨s.members.size⟩, a text⟩) := by
    refine ⟨hkept.grows, fun h hh => ?_, fun _ _ => rfl, .of_spared hspared⟩
    refine (Registry.recordAt_modify_ne _ _ (Nat.ne_of_lt hh)).trans ?_
    exact (Registry.recordAt_push ..).trans (if_neg (Nat.ne_of_lt hh))
  have hsize : ∀ d : Copy, ((s.addMember none).copied d).members.size = s.members.size + 1 :=
    fun d => (Registry.size_modify ..).trans (Registry.size_push ..)
  have hrun : (do
      let v ← Build.newMember
      Build.copyMember source v (a (← id))
      return v : Build MemberHandle).run s = (.ok ⟨s.members.size⟩,
        (s.addMember none).copied ⟨source, ⟨s.members.size⟩, a text⟩) := by
    have hnew : Build.newMember.run s = (.ok ⟨s.members.size⟩, s.addMember none) := rfl
    have hcopy : (Build.copyMember source ⟨s.members.size⟩ (a text)).run (s.addMember none) =
        (.ok ⟨⟩, (s.addMember none).copied ⟨source, ⟨s.members.size⟩, a text⟩) := by
      -- inside a request a copy is made and queued
      show (Except.ok _, ite (s.depth = 0) _ _) = _
      rw [if_neg (Nat.ne_of_gt hd)]
      rfl
    rw [run_bind_ok hnew, run_bind_ok hid, run_bind_ok hcopy]
    rfl
  rw [hrun]
  refine ⟨.change hchange .done, hframed, Nat.lt_of_lt_of_eq (Nat.lt_succ_self _) (hsize _).symm, ?_,
    List.mem_append_right _ List.mem_cons_self, Nat.le_refl _, ?_⟩
  · exact (Registry.keyAt_modify ..).trans ((Registry.keyAt_push ..).trans (if_pos rfl))
  · exact hspared.unlisted (hs.unlisted (Nat.lt_irrefl _))

end Asks

/-! ## 6. Fillings and their ends -/

/-- **The build is a run, and then an end** of the given kind. -/
def Ends (cx : Context) (n : Nat) (c : Scope) (s : Store) (E : Store → Store → Prop)
    (x : Build PUnit) : Prop :=
  s.Sound → c.Fits s → match x.run s with
    | (.ok _, s') => ∃ s₁, Trace cx n c s none s₁ ∧ E s₁ s'
    | (.error f, s') => Trace cx n c s (some f) s'

namespace Ends

variable {cx : Context} {n : Nat} {c : Scope} {s : Store} {E : Store → Store → Prop} {α : Type}

theorem of_runs {x : Build PUnit} {P : PUnit → Store → Prop} (hE : ∀ a s, P a s → E s s)
    (hx : Runs cx n c s x P) : Ends cx n c s E x := by
  intro hs hc
  have hrun := hx hs hc
  rcases hr : x.run s with ⟨result, s'⟩
  rw [hr] at hrun
  cases result with
  | ok a => exact ⟨s', hrun.1, hE a s' hrun.2⟩
  | error f => exact hrun

theorem ask {x : Except Fault α} {R : α → Prop} {g : α → Build PUnit}
    (hx : Gives (¬ cx.WalksFit) R x) (hg : ∀ a, R a → Ends cx n c s E (g a)) :
    Ends cx n c s E (Build.orFault x >>= g) := by
  cases x with
  | ok a => exact fun hs hc => hg a hx hs hc
  | error f => exact fun _ _ => .fault f hx

theorem branch {p : Prop} [Decidable p] {x y : Build PUnit} (hx : p → Ends cx n c s E x)
    (hy : ¬ p → Ends cx n c s E y) : Ends cx n c s E (if p then x else y) := by
  by_cases hp : p
  · rw [if_pos hp]
    exact hx hp
  · rw [if_neg hp]
    exact hy hp

/-- A run, and then a last write that is the end. -/
theorem last {x : Build α} {f : α → Store → Store} {P : α → Store → Prop} (hx : Runs cx n c s x P)
    (hE : s.Sound → c.Fits s → ∀ a s', P a s' → s'.depth = s.depth → E s' (f a s')) :
    Ends cx n c s E (x >>= fun a => modify (f a)) := by
  intro hs hc
  have hrun := hx hs hc
  rcases hr : x.run s with ⟨result, s'⟩
  rw [hr] at hrun
  cases result with
  | ok a =>
    rw [run_bind_ok hr]
    exact ⟨s', hrun.1, hE hs hc a s' hrun.2 (hrun.1.kept hs.calm).1.depth⟩
  | error f =>
    rw [run_bind_error hr]
    exact hrun

end Ends

/-! ## 7. Requests -/

theorem Scope.fits_ofKey {s : Store} (hs : s.Sound) (key : Key) :
    (Scope.ofKey s key).Fits (s.enter.register key) := by
  cases key with
  | member k =>
    have hsize : (s.enter.register (.member k)).members.size = s.members.size + 1 :=
      Registry.size_push ..
    refine ⟨fun h hh => ?_, fun _ => Nat.succ_pos _, ?_, ?_, Nat.le_of_eq hsize.symm, Nat.le_refl _⟩
    · cases hh
      refine ⟨Nat.lt_of_lt_of_eq (Nat.lt_succ_self _) hsize.symm, Nat.lt_succ_self _, fun hin => ?_⟩
      exact Nat.lt_irrefl _ (hs.filledMembers _ hin)
    · exact fun _ hh => nomatch hh
    · exact fun _ hh => nomatch hh
  | type k =>
    have hsize : (s.enter.register (.type k)).types.size = s.types.size + 1 := Registry.size_push ..
    refine ⟨?_, fun hn => absurd rfl hn, fun h hh => ?_, ?_, Nat.le_refl _, Nat.le_of_eq hsize.symm⟩
    · exact fun _ hh => nomatch hh
    · cases hh
      refine ⟨Nat.lt_of_lt_of_eq (Nat.lt_succ_self _) hsize.symm, Nat.lt_succ_self _, fun hin => ?_⟩
      exact Nat.lt_irrefl _ (hs.filledTypes _ hin)
    · exact fun _ hh => nomatch hh
  | unit i =>
    have hsize : (s.enter.register (.unit i)).units.size = s.units.size + 1 := Registry.size_push ..
    refine ⟨?_, fun hn => absurd rfl hn, ?_, fun h hh => ?_, Nat.le_refl _, Nat.le_refl _⟩
    · exact fun _ hh => nomatch hh
    · exact fun _ hh => nomatch hh
    · cases hh
      exact ⟨Nat.lt_of_lt_of_eq (Nat.lt_succ_self _) hsize.symm,
        fun hin => Nat.lt_irrefl _ (hs.filled _ hin)⟩

/-- What a filling comes to inside its request: the record is complete, and the request ends. -/
def closed {α : Type} (a : α) (x : RecordHandle) : Except Fault PUnit × Store → Except Fault α × Store
  | (.ok _, s) => (.ok a, (s.completed x).leave)
  | (.error f, s) => (.error f, s.leave)

/-- **A filling inside its request is a step of the run around it**; that of a unit is in no other
    request. -/
theorem outcome_closed {cx : Context} {n : Nat} {c : Scope} {s : Store} (key : Key) {x : Build PUnit}
    {α : Type} {a : α} {Q : α → Store → Prop} (hs : s.Sound) (hkey : key.position? s = none)
    (hdecl : key.Declared cx.facts) (hunit : ∀ i, key = .unit i → s.depth = 0)
    (hx : Ends cx n (Scope.ofKey s key) (s.enter.register key)
      (fun s₁ s' => Finish cx s key s₁ s' ∧
        s'.Done cx s'.members.size s'.filled (key.next s)) x)
    (hQ : ∀ s', (s.enter.register key).Grows s' → Q a s') :
    Outcome cx (n + 1) c s Q (closed a (key.next s) (x.run (s.enter.register key))) := by
  have hrun := hx (hs.register hkey) (Scope.fits_ofKey hs key)
  rcases hr : x.run (s.enter.register key) with ⟨result, s'⟩
  rw [hr] at hrun
  cases result with
  | ok u =>
    obtain ⟨s₁, hrun, hend, hdone⟩ := hrun
    have hg := (hrun.kept (Store.calm_register s key)).1.grows
    show Outcome cx (n + 1) c s Q (.ok a, (s'.completed (key.next s)).leave)
    rw [Store.leave_completed]
    refine ⟨.fill key hkey hdecl hunit hrun hend hdone .done, hQ _ ?_⟩
    have hleave := (hg.trans hend.grows).trans (Store.grows_leave s')
    exact ⟨hleave.members, hleave.types, hleave.units⟩
  | error f => exact .fail key f hkey hdecl hrun

namespace Build

variable {s : Store}

theorem run_nested {α : Type} (action : Build α) (s : Store) :
    (nested action).run s = ((action.run s.enter).1, (action.run s.enter).2.leave) := rfl

/-- A request that fills is the filling inside `closed`. -/
theorem run_filling {α : Type} (x : Build PUnit) (h : RecordHandle) (a : α) (s : Store) :
    ((((do x; complete h; return a) : Build α).run s).1,
      (((do x; complete h; return a) : Build α).run s).2.leave) = closed a h (x.run s) := by
  rcases hr : x.run s with ⟨result, s'⟩
  cases result with
  | ok u =>
    rw [run_bind_ok hr]
    rfl
  | error f =>
    rw [run_bind_error hr]
    rfl

theorem requestMember_found {fill : Option SymbolId → MemberHandle → Build PUnit}
    {key : Option SymbolId} {h : Nat} (hs : s.Calm) (hfind : s.members.find? key = some h) :
    (requestMember fill key).run s = (.ok ⟨h⟩, s) := by
  rw [requestMember, run_nested, run_get, show s.enter.members.find? key = some h from hfind]
  show (Except.ok _, s.enter.leave) = _
  rw [Store.leave_enter hs]

theorem requestMember_new {fill : Option SymbolId → MemberHandle → Build PUnit}
    {key : Option SymbolId} (hfind : s.members.find? key = none) :
    (requestMember fill key).run s = closed ⟨s.members.size⟩ ((Key.member key).next s)
      ((fill key ⟨s.members.size⟩).run (s.enter.register (.member key))) := by
  rw [requestMember, run_nested, run_get, show s.enter.members.find? key = none from hfind]
  exact run_filling ..

theorem requestType_found {fill : Option TypeRef → TypeHandle → Build PUnit}
    {key : Option TypeRef} {h : Nat} (hs : s.Calm) (hfind : s.types.find? key = some h) :
    (requestType fill key).run s = (.ok ⟨h⟩, s) := by
  rw [requestType, run_nested, run_get, show s.enter.types.find? key = some h from hfind]
  show (Except.ok _, s.enter.leave) = _
  rw [Store.leave_enter hs]

theorem requestType_new {fill : Option TypeRef → TypeHandle → Build PUnit}
    {key : Option TypeRef} (hfind : s.types.find? key = none) :
    (requestType fill key).run s = closed ⟨s.types.size⟩ ((Key.type key).next s)
      ((fill key ⟨s.types.size⟩).run (s.enter.register (.type key))) := by
  rw [requestType, run_nested, run_get, show s.enter.types.find? key = none from hfind]
  exact run_filling ..

end Build

end ApiReference
