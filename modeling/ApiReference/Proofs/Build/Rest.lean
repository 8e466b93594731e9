/-
  Between requests.

  When no request is running, every record that was built stays as it is.  What may still be filled in
  is the expansion of an alias and the branches of a conditional type, which are worked out on first
  use and kept.

  1. `TypeExpr.Later`, `Store.Frozen` -- what may change of a store at rest;
  2. `Demand`, `Store.Held` -- and what of it changes for a demand;
  3. `Store.AtRest`      -- sound, no request running, every copy in step and made for an alias or a
                            view, what is filled done, one level for each member and a side for each
                            that is cached, a list for each view;
  4. `Between`           -- a build from one store at rest to another, and its rules;
  5. requests, and units;
  6. expansions, branches and properties;
  7. renderings.
-/
import ApiReference.Proofs.Build.Bound
import ApiReference.Proofs.Build.Copies
import ApiReference.Proofs.Build.Level
import ApiReference.Proofs.Build.Log
import ApiReference.Proofs.Build.Views

namespace ApiReference

/-! ## 1. Frozen records -/

/-- **What may become of a type record once it is built**: the expansion and the branches are set if
    they were not, once, and nothing else changes. -/
structure TypeExpr.Later (t t' : TypeExpr) : Prop where
  fields : t' = { t with expanded := t'.expanded, resolved := t'.resolved }
  expanded : ∀ e, t.expanded = some e → t'.expanded = some e
  resolved : ∀ p, t.resolved = some p → t'.resolved = some p
  /-- what is no conditional type never gets branches -/
  branches : t.branches = none → t'.resolved = t.resolved

theorem TypeExpr.Later.refl (t : TypeExpr) : t.Later t :=
  ⟨rfl, fun _ h => h, fun _ h => h, fun _ => rfl⟩

/-- What is worked out on first use apart, a later record is the same. -/
theorem TypeExpr.Later.built {t t' : TypeExpr} (h : t.Later t') : t'.built = t.built := by
  rw [h.fields]
  rfl

theorem TypeExpr.Later.trans {t t' t'' : TypeExpr} (h : t.Later t') (h' : t'.Later t'') :
    t.Later t'' where
  fields := by
    rw [h'.fields, h.fields]
  expanded := fun e he => h'.expanded e (h.expanded e he)
  resolved := fun p hp => h'.resolved p (h.resolved p hp)
  branches := by
    intro hb
    have hb' : t'.branches = none := by
      rw [h.fields]
      exact hb
    rw [h'.branches hb', h.branches hb]

namespace Store

/-- **A later store at rest**: more records and copies, and those that were there as they were. -/
structure Frozen (s s' : Store) : Prop where
  grows : s.Grows s'
  copies : s.copies <+: s'.copies
  member : ∀ h, s.HasMember h → s'.member h = s.member h
  type : ∀ h, s.HasType h → (s.type h).Later (s'.type h)
  unit : ∀ h, s.HasUnit h → s'.unit h = s.unit h

theorem Frozen.refl (s : Store) : s.Frozen s :=
  ⟨.refl s, List.prefix_rfl, fun _ _ => rfl, fun _ _ => .refl _, fun _ _ => rfl⟩

theorem Frozen.trans {s s' s'' : Store} (h : s.Frozen s') (h' : s'.Frozen s'') : s.Frozen s'' where
  grows := h.grows.trans h'.grows
  copies := h.copies.trans h'.copies
  member := fun x hx => (h'.member x (hx.mono h.grows.extends)).trans (h.member x hx)
  type := fun x hx => (h.type x hx).trans (h'.type x (hx.mono h.grows.extends))
  unit := fun x hx => (h'.unit x (Nat.lt_of_lt_of_le hx h.grows.units.size)).trans (h.unit x hx)

end Store

/-- What is known of a record stays known. -/
theorem TypeExpr.Later.knows {t t' : TypeExpr} (h : t.Later t') {memo : Memo} (hmemo : t.Knows memo) :
    t'.Knows memo := by
  cases memo with
  | expansion e => exact h.expanded e hmemo
  | branches pair => exact h.resolved pair hmemo

/-! ## 2. Demands -/

/-- **What may be worked out on first use**, and of which records; and whether units that are left out
    may be reported. -/
structure Demand where
  memo : Memo → TypeHandle → Prop
  reports : Prop

instance : CoeFun Demand fun _ => Memo → TypeHandle → Prop := ⟨Demand.memo⟩

namespace Demand

/-- Nothing is worked out. -/
def nothing : Demand := ⟨fun _ _ => False, False⟩

/-- Expansions are worked out. -/
def expansions : Demand where
  memo
    | .expansion _, _ => True
    | .branches _, _ => False
  reports := False

/-- The branches of some records are resolved. -/
def branches (p : TypeHandle → Prop) : Demand where
  memo
    | .expansion _, _ => False
    | .branches _, h => p h
  reports := False

/-- The same is worked out, and units that are left out are reported. -/
def reporting (d : Demand) : Demand := { d with reports := True }

/-- A demand for no less. -/
structure Within (d d' : Demand) : Prop where
  memo : ∀ memo x, d memo x → d' memo x
  reports : d.reports → d'.reports

end Demand

namespace Store

/-- **A later store at rest for a demand**: a record that was there knows more only if that was asked
    for.  What any record knows was known before, or was worked out for a record of the demand.  A unit
    is reported only if that was asked for. -/
structure Held (d : Demand) (s s' : Store) : Prop extends s.Frozen s' where
  kept : ∀ memo h, s.HasType h → (s'.type h).Knows memo → (s.type h).Knows memo ∨ d memo h
  source : ∀ memo, s'.Known memo → ∃ x, (s'.type x).Knows memo ∧ ((s.type x).Knows memo ∨ d memo x)
  warnings : ¬ d.reports → s'.warnings = s.warnings

namespace Held

variable {d d' : Demand} {s s' s'' : Store}

theorem refl (d : Demand) (s : Store) : s.Held d s :=
  ⟨.refl s, fun _ _ _ h => .inl h, fun _ ⟨x, hx⟩ => ⟨x, hx, .inl hx⟩, fun _ => rfl⟩

theorem trans (h : s.Held d s') (h' : s'.Held d s'') : s.Held d s'' where
  toFrozen := h.toFrozen.trans h'.toFrozen
  kept memo x hx hknows := (h'.kept memo x (hx.mono h.grows.extends) hknows).elim (h.kept memo x hx) .inr
  source memo hknown := by
    obtain ⟨x, hx, hold | hd⟩ := h'.source memo hknown
    · obtain ⟨y, hy, hsource⟩ := h.source memo ⟨x, hold⟩
      exact ⟨y, (h'.type y (hasType_of_knows hy)).knows hy, hsource⟩
    · exact ⟨x, hx, .inr hd⟩
  warnings hd := (h'.warnings hd).trans (h.warnings hd)

theorem mono (h : s.Held d s') (hd : d.Within d') : s.Held d' s' where
  toFrozen := h.toFrozen
  kept memo x hx hknows := (h.kept memo x hx hknows).imp_right (hd.memo memo x)
  source memo hknown := by
    obtain ⟨x, hx, hsource⟩ := h.source memo hknown
    exact ⟨x, hx, hsource.imp_right (hd.memo memo x)⟩
  warnings hd' := h.warnings (mt hd.reports hd')

/-- **What nobody asked for stays unknown.** -/
theorem known (h : s.Held d s') {memo : Memo} (hd : ∀ x, ¬ d memo x) (hknown : s'.Known memo) :
    s.Known memo := by
  obtain ⟨x, -, hsource⟩ := h.source memo hknown
  exact ⟨x, hsource.resolve_right (hd x)⟩

/-- A step at which all type records stay the same. -/
theorem of_types (h : s.Frozen s') (htypes : s'.types = s.types)
    (hwarnings : ¬ d.reports → s'.warnings = s.warnings) : s.Held d s' where
  toFrozen := h
  warnings := hwarnings
  kept memo x _ hknows := by
    refine .inl ?_
    show (s.types.recordAt x.index).Knows memo
    rw [← htypes]
    exact hknows
  source memo hknown := by
    obtain ⟨x, hx⟩ := hknown.of_types htypes
    refine ⟨x, ?_, .inl hx⟩
    show (s'.types.recordAt x.index).Knows memo
    rw [htypes]
    exact hx

end Held

/-! ## 3. Stores at rest -/

/-- **A store at rest**: no request is running, every copy ever made is in step and made for an alias or
    a view, what was filled is done, every member has one level at most, every cached one is on its side,
    no two members list the same view, and every registered key is declared. -/
structure AtRest (cx : Context) (s : Store) : Prop where
  sound : s.Sound
  depth : s.depth = 0
  synced : ∀ p ∈ s.copies, p.Synced s
  log : s.Logged cx []
  leveled : s.Leveled cx.facts
  sided : s.Sided cx.facts
  aliased : s.Aliased cx.facts
  apart : s.Apart
  declared : s.Declares cx.facts

variable {cx : Context}

theorem AtRest.empty : ({} : Store).AtRest cx :=
  ⟨.empty, rfl, fun _ h => absurd h List.not_mem_nil, .of_eq rfl, .empty, .empty, .empty,
    apart_empty, declares_empty⟩

theorem whole_empty : ({} : Store).Whole := by
  intro k i hk
  cases k <;> exact absurd (Registry.lt_size_of_find? hk) (Nat.not_lt_zero i)

theorem AtRest.pending {s : Store} (h : s.AtRest cx) : s.pending = [] := h.sound.calm h.depth

/-- Between requests nobody owns a member. -/
theorem AtRest.not_ownsMember {s : Store} (h : s.AtRest cx) (c : Scope) (x : MemberHandle) :
    ¬ c.OwnsMember s x :=
  fun hx => absurd hx.1 (h.depth ▸ Nat.lt_irrefl 0)

/-- **A run between requests** leaves the store at rest, and every record that was there; it works
    nothing out. -/
theorem AtRest.run {n : Nat} {s s' : Store} {o : Option Fault} (h : s.AtRest cx) (d : Demand)
    (hrun : Trace cx n (Scope.outer s) s o s') :
    s'.AtRest cx ∧ s.Held d s' ∧ ∀ x, s.HasType x → s'.type x = s.type x := by
  obtain ⟨hk, -⟩ := hrun.kept h.sound.calm
  have htype : ∀ x, s.HasType x → s'.type x = s.type x := by
    intro x hx
    -- between requests no scope is open, so no type record is owned
    refine hk.type x hx ?_
    rintro ⟨-, he | ⟨hle, -⟩⟩
    · exact nomatch he
    · exact absurd hx (Nat.not_lt.2 hle)
  have hfit := Scope.fits_outer s
  have hlog : s'.Logged cx [] :=
    h.log.extend h.sound (hk.upholds h.sound) hk.grows.members.size (fun _ _ _ _ _ => rfl)
      (hrun.logged h.sound hfit)
  have hrest : s'.AtRest cx := {
    sound := hrun.sound h.sound
    depth := hk.depth.trans h.depth
    synced := hrun.synced h.sound hfit h.depth h.synced
    log := hlog
    leveled := hrun.leveled h.sound h.leveled
    sided := hrun.sided h.sound h.sided
    aliased := hrun.aliased h.sound h.aliased
    apart := h.apart.kept hk.grows (hrun.listsKept h.sound hfit.members)
    declared := hrun.declares h.sound h.declared }
  have hfrozen : s.Frozen s' := {
    grows := hk.grows
    copies := by
      obtain ⟨new, hnew, -⟩ := hk.copies
      exact ⟨new, hnew.symm⟩
    member := fun x hx => hk.member x hx (h.not_ownsMember _ x)
    type := fun x hx => htype x hx ▸ .refl _
    unit := fun x hx => hk.unit x hx fun e => nomatch e.2 }
  refine ⟨hrest, ⟨hfrozen, ?_, ?_, fun _ => hrun.warnings h.sound⟩, htype⟩
  · exact fun memo x hx hknows => .inl (htype x hx ▸ hknows)
  · intro memo hknown
    obtain ⟨x, hx⟩ := hrun.known hknown
    exact ⟨x, (htype x (hasType_of_knows hx)).symm ▸ hx, .inl hx⟩

/-- A step that leaves the members, the keys and the log as they are. -/
theorem AtRest.beside {s s' : Store} (h : s.AtRest cx) (hs : s'.Sound) (hu : Upholds s.members.size s s')
    (hmembers : s'.members = s.members) (hcopies : s'.copies = s.copies) (hfilled : s'.filled = s.filled)
    (hdepth : s'.depth = s.depth) (hkeys : ∀ k : Key, k.position? s' = k.position? s) : s'.AtRest cx where
  sound := hs
  depth := hdepth.trans h.depth
  synced := by
    have hmember : ∀ x : MemberHandle, s'.member x = s.member x := fun x =>
      congrArg (·.recordAt x.index) hmembers
    rw [hcopies]
    exact fun p hp => (h.synced p hp).congr (hmember _) (hmember _)
  log := h.log.upholds h.sound hu hfilled
  leveled := h.leveled.congr hu.grows hmembers hcopies
  sided := by
    refine h.sided.congr hmembers fun d hd => ?_
    -- no copy is pending between requests
    rw [hs.calm (hdepth.trans h.depth)] at hd
    exact absurd hd List.not_mem_nil
  aliased := h.aliased.mono h.sound hu.grows hcopies
  apart := h.apart.spared (.of_eq hu.grows hmembers hcopies)
  declared := h.declared.of_position? hkeys

/-- **A memo**: what is worked out on first use is written into the record. -/
theorem AtRest.setType {s : Store} (h : s.AtRest cx) {d : Demand} {x : TypeHandle} {t : TypeExpr}
    (hlater : (s.type x).Later t) (hrefers : t.Refers s.toModel)
    (hdemand : ∀ memo, t.Knows memo → (s.type x).Knows memo ∨ d memo x) :
    (s.setType x t).AtRest cx ∧ s.Held d (s.setType x t) := by
  have hgrows : s.Grows (s.setType x t) := by
    refine ⟨.refl _, ?_, .refl _⟩
    rw [types_setType]
    exact Registry.grows_modify ..
  have htype : ∀ y, s.HasType y → (s.type y).Later ((s.setType x t).type y) := by
    intro y hy
    by_cases he : y = x
    · subst he
      rw [type_setType_self hy]
      exact hlater
    · rw [type_setType_ne he]
      exact .refl _
  have hu : Upholds s.members.size s (s.setType x t) :=
    { Upholds.refl s.members.size s with
      grows := hgrows
      type := fun y hy => (htype y (h.sound.filledTypes y hy)).built }
  have hkept : ∀ memo y, s.HasType y → ((s.setType x t).type y).Knows memo →
      (s.type y).Knows memo ∨ d memo y := by
    intro memo y hy hknows
    by_cases he : y = x
    · subst he
      rw [type_setType_self hy] at hknows
      exact hdemand memo hknows
    · rw [type_setType_ne he] at hknows
      exact .inl hknows
  have hrest : (s.setType x t).AtRest cx := by
    refine h.beside (h.sound.setType hrefers) hu rfl rfl rfl rfl fun k => ?_
    cases k with
    | member k => rfl
    | type k => exact Registry.find?_modify ..
    | unit i => rfl
  have hfrozen : s.Frozen (s.setType x t) :=
    ⟨hgrows, List.prefix_rfl, fun _ _ => rfl, htype, fun _ _ => rfl⟩
  refine ⟨hrest, hfrozen, hkept, fun memo ⟨y, hy⟩ => ⟨y, hy, ?_⟩, fun _ => rfl⟩
  refine hkept memo y ?_ hy
  have hin := hasType_of_knows hy
  unfold Model.HasType at hin ⊢
  rwa [types_setType, Registry.size_modify] at hin

/-- What was skipped is no part of the model. -/
theorem AtRest.warn {s : Store} (h : s.AtRest cx) {d : Demand} (hd : d.reports) (ws : List String) :
    ({ s with warnings := ws } : Store).AtRest cx ∧ s.Held d { s with warnings := ws } := by
  have hgrows : s.Grows { s with warnings := ws } := ⟨.refl _, .refl _, .refl _⟩
  have hu : Upholds s.members.size s { s with warnings := ws } :=
    { Upholds.refl s.members.size s with grows := hgrows }
  have hrest : ({ s with warnings := ws } : Store).AtRest cx :=
    h.beside { h.sound with } hu rfl rfl rfl rfl fun k => by cases k <;> rfl
  have hfrozen : s.Frozen { s with warnings := ws } :=
    ⟨hgrows, List.prefix_rfl, fun _ _ => rfl, fun _ _ => .refl _, fun _ _ => rfl⟩
  exact ⟨hrest, .of_types hfrozen rfl (absurd hd)⟩

end Store

/-- Stores at rest, and what each keeps of the one before. -/
def Store.resting (cx : Context) : Regime Store := ⟨AtRest cx, Frozen, Whole, .refl, .trans⟩

/-- Stores at rest, with what may be worked out from one to the next. -/
def Store.working (cx : Context) (d : Demand) : Regime Store := ⟨AtRest cx, Held d, Whole, .refl d, .trans⟩

/-! ## 4. Builds between requests -/

/-- **A build from one store at rest to another**, which works out no more than is demanded, and whose
    result has `Q`. -/
abbrev Between {α : Type} (cx : Context) (d : Demand) (hang : Prop) (s : Store) (x : Build α)
    (Q : α → Store → Prop) : Prop :=
  (Store.working cx d).Allows hang s x Q

namespace Between

variable {cx : Context} {d : Demand} {hang : Prop} {s : Store} {α β : Type} {P : α → Store → Prop}
  {Q : β → Store → Prop}

theorem ask {x : Except Fault α} {R : α → Prop} {g : α → Build β} (hx : Gives hang R x)
    (hg : ∀ a, R a → Between cx d hang s (g a) Q) : Between cx d hang s (Build.orFault x >>= g) Q := by
  cases x with
  | ok a => exact fun hs => hg a hx hs
  | error f => exact fun hs => ⟨⟨hs, .refl d s⟩, hx⟩

theorem readMember {h : MemberHandle} {g : Member → Build β} (hg : Between cx d hang s (g (s.member h)) Q) :
    Between cx d hang s (Build.member h >>= g) Q := hg

theorem readType {h : TypeHandle} {g : TypeExpr → Build β} (hg : Between cx d hang s (g (s.type h)) Q) :
    Between cx d hang s (Build.type h >>= g) Q := hg

/-- **A run between requests**, on the call stack of the host. -/
theorem of_runs {x : Build α} (hhang : ¬ cx.HasRoom s → hang)
    (hx : Runs cx cx.host.fillings (Scope.outer s) s x P) :
    Between cx d hang s x fun a s' => P a s' ∧ ∀ h, s.HasType h → s'.type h = s.type h := by
  intro hs
  have hrun := hx hs.sound (Scope.fits_outer s)
  rcases hr : x.run s with ⟨result, s'⟩
  rw [hr] at hrun
  cases result with
  | ok a =>
    obtain ⟨hrest, hfrozen, htype⟩ := hs.run d hrun.1
    exact ⟨⟨hrest, hfrozen⟩, hrun.1.whole hs.sound.calm, hrun.2, htype⟩
  | error f =>
    obtain ⟨hrest, hfrozen, -⟩ := hs.run d (show Trace _ _ _ s (some f) s' from hrun)
    refine ⟨⟨hrest, hfrozen⟩, fun he => hhang fun hroom => ?_⟩
    subst he
    exact Trace.ne_endless hrun hroom.1 hs.sound.calm hroom.2 rfl

/-- A result worked out on first use, written into its record. -/
theorem memo {h : TypeHandle} {f : TypeExpr → TypeExpr} (hlater : (s.type h).Later (f (s.type h)))
    (hrefers : s.Sound → (f (s.type h)).Refers s.toModel)
    (hdemand : ∀ memo, (f (s.type h)).Knows memo → (s.type h).Knows memo ∨ d memo h) :
    Between cx d hang s (Build.modifyType h f) (fun _ _ => True) := by
  intro hs
  have hwrite : (Build.modifyType h f).run s = (.ok ⟨⟩, s.setType h (f (s.type h))) := by
    show (_, ({ s with types := s.types.modify h.index f } : Store)) = _
    rw [Registry.modify_const]
    rfl
  rw [hwrite]
  refine ⟨hs.setType hlater (hrefers hs.sound) hdemand, fun hw k i hk => hw k i ?_, trivial⟩
  cases k with
  | member k => exact hk
  | type k => exact (Registry.find?_modify ..).symm.trans hk
  | unit k => exact hk

end Between

namespace Build

/-! ## 5. Requests and units -/

section

variable {cx : Context} {d : Demand} {hang : Prop} {s : Store} (hhang : ¬ cx.HasRoom s → hang)
variable (hf : cx.facts.Closed)
include hhang hf

theorem between_member {key : Option SymbolId} (hkey : cx.facts.SymbolKey key) :
    Between cx d hang s ((requests cx).member key) fun h s' => s'.members.find? key = some h.index :=
  (Between.of_runs hhang ((lawful_requestsWithin hf _).member _ s key hkey)).mono
    fun _ _ h => h.1.1

theorem between_type {key : Option TypeRef} (hkey : cx.facts.TypeKey key) :
    Between cx d hang s ((requests cx).type key) fun h s' => s'.types.find? key = some h.index :=
  (Between.of_runs hhang ((lawful_requestsWithin hf _).type _ s key hkey)).mono fun _ _ h => h.1

theorem between_unit {position : Nat} (hposition : position < cx.facts.units.length) :
    Between cx d hang s (unitRecord cx position) fun h s' => s'.units.find? position = some h.index :=
  .holds fun hs => (Between.of_runs hhang (runs_unitWithin hf hs.depth hposition)).mono fun _ _ h => h.1

theorem between_unitNamed (name : String) :
    Between cx d hang s (unitNamed cx name) fun h s' => s'.HasUnit h := by
  unfold unitNamed
  refine Between.ask (R := fun i => i < cx.facts.units.length) ?_ fun position hposition => ?_
  · unfold positionNamed
    split
    · rename_i position hfind
      exact (List.findIdx?_eq_some_iff_getElem.1 hfind).1
    · refine .error fun e => ?_
      cases e
  · exact (between_unit hhang hf hposition).mono fun _ _ h => Registry.lt_size_of_find? h

omit hhang hf in
/-- A unit that is left out is no part of the model. -/
theorem between_warn (hd : d.reports) (fault : Fault) :
    Between cx d hang s (warn fault) fun us _ => us = [] :=
  fun hs => ⟨hs.warn hd _, id, rfl⟩

/-- A unit without a root is left out with a warning. -/
theorem between_unitOrWarning (hd : d.reports) {position : Nat}
    (hposition : position < cx.facts.units.length) :
    Between cx d hang s (unitOrWarning cx (.ok position)) fun us s' => ∀ u ∈ us, s'.HasUnit u := by
  unfold unitOrWarning
  refine .readState (.branch ?_ ?_)
  · refine (between_unit hhang hf hposition).bind fun u s' _ hu => .pure fun _ x hx => ?_
    rw [List.mem_singleton.1 hx]
    exact Registry.lt_size_of_find? hu
  · refine (between_warn hd _).mono fun us s' hus u hu => ?_
    rw [hus] at hu
    exact absurd hu List.not_mem_nil

theorem between_allUnits (hd : d.reports) :
    Between cx d hang s (allUnits cx) fun us s' => ∀ u ∈ us, s'.HasUnit u := by
  unfold allUnits
  refine (Regime.Allows.mapM (Q := fun us s' => ∀ u ∈ us, s'.HasUnit u) (fun us s s' h hus u hu => ?_)
    fun i hi s' hlater => ?_).bind fun found s' _ hfound => .pure fun _ u hu => ?_
  · exact Nat.lt_of_lt_of_le (hus u hu) h.grows.units.size
  · exact between_unitOrWarning (fun h => hhang (mt (·.later hlater.grows) h)) hf hd (List.mem_range.1 hi)
  · obtain ⟨us, hus, hu⟩ := List.mem_flatten.1 hu
    exact hfound us hus u hu

/-! ## 6. On first use -/

omit hhang hf in
/-- A record that is not an empty one is there. -/
theorem hasType_of_ne {h : TypeHandle} (hne : s.type h ≠ default) : s.HasType h :=
  Nat.lt_of_not_le fun hout => hne (Registry.recordAt_of_size_le hout)

omit hhang hf in
/-- An expansion written into a record that had none. -/
theorem between_keepExpansion {h : TypeHandle} (hd : ∀ e, d (.expansion e) h) {e : Option TypeHandle}
    (hnone : (s.type h).expanded = none) (he : s.TypeIn e) :
    Between cx d hang s (modifyType h (fun t => { t with expanded := e }) >>= fun _ => pure e)
      fun e s' => s'.TypeIn e := by
  refine (Between.memo ⟨rfl, fun e he => ?_, fun _ h => h, fun _ => rfl⟩ (fun hs => ?_)
    fun memo hknows => ?_).bind fun _ s' hfrozen _ => .pure fun _ => he.mono hfrozen.grows.extends
  · rw [hnone] at he
    exact nomatch he
  · exact { hs.type h with expanded := he }
  · cases memo with
    | expansion e => exact .inr (hd e)
    | branches pair => exact .inl hknows

/-- **The expansion of an alias reference** is a record, and is kept. -/
theorem between_expansion {h : TypeHandle} (hd : ∀ e, d (.expansion e) h) :
    Between cx d hang s (expansion cx h) fun e s' => s'.TypeIn e := by
  unfold expansion
  refine .readType (.holds fun hs => ?_)
  have hrefers := hs.sound.type h
  split
  · rename_i e he
    exact .pure fun _ => he ▸ hrefers.expanded
  · exact .pure fun _ => .none
  · rename_i source hnone hsource
    split
    · rename_i e
      exact between_keepExpansion hd hnone (hrefers.expansion e hsource)
    · rename_i ref
      have hexpand : Between cx d hang s (expandWithin cx cx.host.fillings ref) _ :=
        .of_runs hhang (runs_expandWithin hf ref)
      refine hexpand.bind fun e s' _ he => between_keepExpansion hd ?_ he.1
      have hrecord : s.HasType h := hasType_of_ne fun hempty => by
        rw [hempty] at hsource
        exact nomatch hsource
      rw [he.2 h hrecord]
      exact hnone

omit hhang hf in
theorem hasType_of_branches {h : TypeHandle} {source : Branches}
    (hsource : (s.type h).branches = some source) : s.HasType h :=
  hasType_of_ne fun hempty => by
    rw [hempty] at hsource
    exact nomatch hsource

omit hhang hf in
/-- Branches written into a conditional record that had none. -/
theorem between_keepBranches {h : TypeHandle} (hd : ∀ pair, d (.branches pair) h)
    {pair : Option TypeHandle × Option TypeHandle}
    {source : Branches} (hsource : (s.type h).branches = some source)
    (hnone : (s.type h).resolved = none) (hpair : s.TypeIn pair.1 ∧ s.TypeIn pair.2) :
    Between cx d hang s (modifyType h (fun t => { t with resolved := some pair }) >>= fun _ =>
      pure (some pair)) fun _ _ => True := by
  refine (Between.memo ⟨rfl, fun _ h => h, fun p hp => ?_, fun hb => ?_⟩ (fun hs => ?_)
    fun memo hknows => ?_).bind fun _ s' _ _ => .pure fun _ => trivial
  · rw [hnone] at hp
    exact nomatch hp
  · rw [hsource] at hb
    exact nomatch hb
  · refine { hs.type h with resolved := fun p hp => ?_ }
    cases hp
    exact hpair
  · cases memo with
    | expansion e => exact .inl hknows
    | branches pair => exact .inr (hd pair)

/-- **The branches of a conditional type** are kept. -/
theorem between_branches {h : TypeHandle} (hd : ∀ pair, d (.branches pair) h) :
    Between cx d hang s (branches cx h) fun _ _ => True := by
  unfold branches
  refine .readType (.holds fun hs => ?_)
  split
  · exact .pure fun _ => trivial
  · exact .pure fun _ => trivial
  · rename_i source hnone hsource
    split
    · rename_i yes no
      exact between_keepBranches hd hsource hnone ((hs.sound.type h).branches yes no hsource)
    · rename_i ref
      have hrecord := hasType_of_branches hsource
      have hlawful : (requests cx).Lawful cx cx.host.fillings := lawful_requestsWithin hf _
      have hfacts := hf.type ref
      refine (Between.of_runs hhang (hlawful.type _ s _ (Facts.typeKey_orError hfacts.trueType))).bind
        fun yes s₁ hfrozen hyes => ?_
      have hhang₁ : ¬ cx.HasRoom s₁ → hang := fun h => hhang (mt (·.later hfrozen.grows) h)
      refine (Between.of_runs hhang₁ (hlawful.type _ s₁ _ (Facts.typeKey_orError hfacts.falseType))).bind
        fun no s₂ hfrozen' hno => ?_
      have hsame : s₂.type h = s.type h :=
        (hno.2 h (hrecord.mono hfrozen.grows.extends)).trans (hyes.2 h hrecord)
      have hfirst : s₁.HasType yes := Registry.lt_size_of_find? hyes.1
      have hsecond : s₂.HasType no := Registry.lt_size_of_find? hno.1
      refine between_keepBranches hd (hsame ▸ hsource) (hsame ▸ hnone) ?_
      exact ⟨.some (hfirst.mono hfrozen'.grows.extends), .some hsecond⟩

/-- **The type that a type alias stands for.** -/
theorem between_aliasedType (hd : ∀ e h, d (.expansion e) h) (h : MemberHandle) :
    Between cx d hang s (aliasedType cx h) fun _ _ => True := by
  unfold aliasedType
  refine .readMember ?_
  split
  · exact .pure fun _ => trivial
  · rename_i declared _
    refine .readType ?_
    split
    · exact (between_expansion hhang hf fun e => hd e declared).mono fun _ _ _ => trivial
    · rename_i t _ _
      refine .readType (.branch ?_ ?_)
      · exact (between_expansion hhang hf fun e => hd e t).mono fun _ _ _ => trivial
      · exact .pure fun _ => trivial
    · exact .pure fun _ => trivial

theorem between_propertiesOf (h : TypeHandle) :
    Between cx d hang s (propertiesOf cx h) fun _ _ => True := by
  unfold propertiesOf
  refine .readType ?_
  split
  · exact .pure fun _ => trivial
  · rename_i t _
    have hwalk : ¬ cx.WalksFit → hang := fun h => hhang fun hroom => h hroom.1
    refine .ask ((Context.gives_propertiesOf hf (some t)).weaken hwalk) fun ps ⟨_, hps⟩ => ?_
    refine (Regime.Allows.mapM (Q := fun _ _ => True) (fun _ _ _ _ _ => trivial)
      fun p hp s' hlater => ?_).mono fun _ _ _ => trivial
    have hhang' : ¬ cx.HasRoom s' → hang := fun h => hhang (mt (·.later hlater.grows) h)
    exact (between_member hhang' hf (hps p hp)).mono fun _ _ _ => trivial

end

/-! ## 7. Renderings -/

/-- **A rendering that resolves the branches it meets** gives what the model at its end shows. -/
theorem between_settledWithin {cx : Context} {d : Demand} (hf : cx.facts.Closed)
    (hd : ∀ pair h, d (.branches pair) h) {α : Type} (render : Model → Rendering α) (n : Nat) {s : Store} :
    Between cx d True s (settledWithin cx render n) fun a s' => render s'.toModel = .ok a := by
  induction n generalizing s with
  | zero => exact .throw fun _ => trivial
  | succ n ih =>
    unfold settledWithin
    refine .readState ?_
    split
    · rename_i a ha
      exact .pure fun _ => ha
    · exact .throw fun _ => trivial
    · rename_i h _
      exact (between_branches (fun _ => trivial) hf fun pair => hd pair h).bind fun _ s' _ _ => ih

theorem between_settled {cx : Context} {d : Demand} (hf : cx.facts.Closed)
    (hd : ∀ pair h, d (.branches pair) h) {α : Type} (render : Model → Rendering α) {s : Store} :
    Between cx d True s (settled cx render) fun a s' => render s'.toModel = .ok a := by
  unfold settled
  exact .readState (between_settledWithin hf hd render _)

/-- A rendering of which nothing is left to resolve changes nothing. -/
theorem run_settled {cx : Context} {α : Type} {render : Model → Rendering α} {s : Store} {a : α}
    (h : render s.toModel = .ok a) : (settled cx render).run s = (.ok a, s) := by
  rw [settled, run_get, settledWithin, run_get, h]
  rfl

end Build

end ApiReference
