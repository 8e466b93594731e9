/-
  A rendering that resolves branches as it meets them.

  A walk stops at the first conditional record whose branches are not resolved, they are resolved, and
  the walk starts again.  Each try resolves one record more, so the tries end, and the last one shows
  what a walk over the graph with all branches resolved shows.

  1. `Store.workedOut`   -- the graph with all branches resolved;
  2. `Store.Graph`       -- finished graphs;
  3. `Coincide`          -- the same, or stopped at a record still to be resolved;
  4. `Store.Towards`     -- the stores between two tries;
  5. `exists_tokens`     -- the walk over a worked-out graph succeeds;
  6. `exists_run_settled` -- the tries end.
-/
import ApiReference.Proofs.Render.Repeat
import ApiReference.Proofs.Render.Layout
import Mathlib.Data.Finset.Card

namespace ApiReference

/-! ## 1. All branches resolved -/

/-- **The branches of a record** as they are, or as they will be resolved among the records there are. -/
def Context.branchPair (cx : Context) (m : Model) (t : TypeExpr) :
    Option (Option TypeHandle × Option TypeHandle) :=
  match t.resolved, t.branches with
  | some pair, _ => some pair
  | none, none => none
  | none, some (.records yes no) => some (yes, no)
  | none, some (.ofType ref) => do
    let yes ← m.types.find? (some (.orError (cx.facts.type ref).trueType))
    let no ← m.types.find? (some (.orError (cx.facts.type ref).falseType))
    return (some ⟨yes⟩, some ⟨no⟩)

/-- **The graph with the branches of every record resolved.** -/
def Store.workedOut (cx : Context) (s : Store) : Model :=
  { s.toModel with types :=
      ⟨s.types.slots.map fun slot => (slot.1, { slot.2 with resolved := cx.branchPair s.toModel slot.2 })⟩ }

namespace Store

variable {cx : Context} {s s' : Store}

@[simp] theorem member_workedOut (c : MemberHandle) : (s.workedOut cx).member c = s.member c := rfl

@[simp] theorem size_workedOut : (s.workedOut cx).types.size = s.types.size := Array.size_map ..

/-- Only the branches of a record are worked out. -/
theorem type_workedOut (h : TypeHandle) : (s.workedOut cx).type h =
    { s.type h with resolved := cx.branchPair s.toModel (s.type h) } := by
  show (Option.map Prod.snd (Array.map _ s.types.slots)[h.index]?).getD default =
    { (Option.map Prod.snd s.types.slots[h.index]?).getD default with
      resolved := cx.branchPair s.toModel ((Option.map Prod.snd s.types.slots[h.index]?).getD default) }
  rw [Array.getElem?_map]
  cases s.types.slots[h.index]? <;> rfl

/-! ## 2. Finished graphs -/

/-- The branches of the record are still to be resolved. -/
def Undecided (s : Store) (h : TypeHandle) : Prop :=
  (s.type h).resolved = none ∧ (s.type h).branches ≠ none

instance (s : Store) (h : TypeHandle) : Decidable (s.Undecided h) :=
  inferInstanceAs (Decidable ((s.type h).resolved = none ∧ (s.type h).branches ≠ none))

/-- **A finished graph**: no request is running, branches resolve to records of the graph, no operand
    and no object member is missing, and the names of members are texts. -/
structure Graph (cx : Context) (s : Store) : Prop where
  calm : s.Calm
  branches : ∀ h, (s.type h).branches ≠ none → cx.branchPair s.toModel (s.type h) ≠ none
  operands : ∀ h, none ∉ (s.type h).operands.getD []
  members : ∀ h, none ∉ (s.type h).members.getD []
  names : ∀ c, ∃ text, (s.member c).name = .str text

/-- The store of records put together by hand. -/
def ofRecords (members : List Member) (types : List TypeExpr) : Store where
  members := ⟨(members.map fun c => (none, c)).toArray⟩
  types := ⟨(types.map fun t => (none, t)).toArray⟩

variable {members : List Member} {types : List TypeExpr}

theorem member_ofRecords (c : MemberHandle) :
    (ofRecords members types).member c = members[c.index]?.getD default := by
  show (Option.map Prod.snd (members.map fun c => (none, c)).toArray[c.index]?).getD default = _
  rw [List.getElem?_toArray, List.getElem?_map]
  cases members[c.index]? <;> rfl

theorem type_ofRecords (h : TypeHandle) :
    (ofRecords members types).type h = types[h.index]?.getD default := by
  show (Option.map Prod.snd (types.map fun t => (none, t)).toArray[h.index]?).getD default = _
  rw [List.getElem?_toArray, List.getElem?_map]
  cases types[h.index]? <;> rfl

/-- What holds of all given records, and of the empty one, holds of every record. -/
theorem forall_type_ofRecords {P : TypeExpr → Prop} (h : ∀ t ∈ types, P t) (hempty : P {})
    (x : TypeHandle) : P ((ofRecords members types).type x) := by
  rw [type_ofRecords]
  cases ht : types[x.index]? with
  | none => exact hempty
  | some t => exact h t (List.mem_of_getElem? ht)

theorem forall_member_ofRecords {P : Member → Prop} (h : ∀ c ∈ members, P c) (hempty : P {})
    (x : MemberHandle) : P ((ofRecords members types).member x) := by
  rw [member_ofRecords]
  cases hc : members[x.index]? with
  | none => exact hempty
  | some c => exact h c (List.mem_of_getElem? hc)

/-- **Records put together by hand are a finished graph**, if none of their branches is to be built,
    nothing is missing, and names are texts. -/
theorem graph_ofRecords (hbranches : ∀ t ∈ types, ∀ ref, t.branches ≠ some (.ofType ref))
    (hoperands : ∀ t ∈ types, none ∉ t.operands.getD []) (hmembers : ∀ t ∈ types, none ∉ t.members.getD [])
    (hnames : ∀ c ∈ members, ∃ text, c.name = .str text) : (ofRecords members types).Graph cx where
  calm _ := rfl
  branches x := by
    refine forall_type_ofRecords (P := fun t => t.branches ≠ none → cx.branchPair _ t ≠ none)
      (fun t ht hsome => ?_) (fun h => absurd rfl h) x
    -- by hand the branches are records, or none
    obtain ⟨source, hsource⟩ := Option.ne_none_iff_exists'.1 hsome
    unfold Context.branchPair
    rw [hsource]
    cases t.resolved with
    | some pair => exact Option.some_ne_none pair
    | none =>
      cases source with
      | records yes no => exact Option.some_ne_none _
      | ofType ref => exact absurd hsource (hbranches t ht ref)
  operands := forall_type_ofRecords (P := fun t => none ∉ t.operands.getD []) hoperands List.not_mem_nil
  members := forall_type_ofRecords (P := fun t => none ∉ t.members.getD []) hmembers List.not_mem_nil
  names := forall_member_ofRecords (P := fun c => ∃ text, c.name = .str text) hnames ⟨"", rfl⟩

end Store

/-! ## 3. Renderings that coincide -/

/-- **The same rendering**, unless the first stopped at a record of `P`. -/
def Coincide {α : Type} (P : TypeHandle → Prop) (x y : Rendering α) : Prop :=
  x = y ∨ ∃ h, x = .error (.unresolved h) ∧ P h

namespace Coincide

variable {α β : Type} {P : TypeHandle → Prop}

theorem refl (x : Rendering α) : Coincide P x x := .inl rfl

theorem stopped {h : TypeHandle} (hP : P h) (y : Rendering α) :
    Coincide P (throw (.unresolved h)) y := .inr ⟨h, rfl, hP⟩

theorem bind {x y : Rendering α} {f g : α → Rendering β} (hx : Coincide P x y)
    (hf : ∀ a, Coincide P (f a) (g a)) : Coincide P (x >>= f) (y >>= g) := by
  rcases hx with rfl | ⟨h, rfl, hP⟩
  · cases x with
    | error cause => exact .refl _
    | ok a => exact hf a
  · exact .stopped hP _

end Coincide

namespace Layout

variable {P : TypeHandle → Prop} {manner : Manner} {W W' : Option TypeHandle → Rendering (List Token)}

theorem coincide_renderAll {ls : List Layout}
    (h : ∀ l ∈ ls, Coincide P (render manner W l) (render manner W' l)) :
    Coincide P (renderAll manner W ls) (renderAll manner W' ls) := by
  induction ls with
  | nil => exact .refl _
  | cons l ls ih =>
    refine (h l List.mem_cons_self).bind fun tokens => ?_
    exact (ih fun x hx => h x (List.mem_cons_of_mem l hx)).bind fun rest => .refl _

/-- A layout agrees with itself if its parts do. -/
theorem coincide_render {l : Layout} (h : ∀ p, Coincide P (W p) (W' p)) :
    Coincide P (render manner W l) (render manner W' l) := by
  induction l with
  | own kind text member => exact .refl _
  | part p => exact h p
  | stop cause => exact .refl _
  | list joint ls ih => exact (coincide_renderAll ih).bind fun es => .refl _
  | swapped first second ihf ihs => exact ihs.bind fun after => ihf.bind fun before => .refl _
  | enclosed l ih => exact ih.bind fun tokens => .refl _
  | signature l ih => exact ih.bind fun tokens => .refl _

/-- A sequence that stops where another goes on. -/
theorem coincide_cut {h : TypeHandle} (hP : P h) (hw : ∀ p, Coincide P (W p) (W' p))
    (before rest : List Layout) :
    Coincide P (render manner W (seq (before ++ [.stop (.unresolved h)])))
      (render manner W' (seq (before ++ rest))) := by
  rw [render_seq, render_seq, renderAll_append, renderAll_append, bind_assoc, bind_assoc]
  refine (coincide_renderAll fun l _ => coincide_render hw).bind fun es => ?_
  exact .stopped hP _

end Layout

namespace Store

variable {cx : Context} {s s' : Store} {st : Style}

/-! ## 4. Between two tries -/

/-- **A store between two tries**: some branches have been resolved. -/
structure Towards (cx : Context) (s s' : Store) : Prop where
  calm : s'.Calm
  members : s'.members = s.members
  find : ∀ key, s'.types.find? key = s.types.find? key
  size : s'.types.size = s.types.size
  type : ∀ h, s'.type h = s.type h ∨ s'.type h = (s.workedOut cx).type h

theorem Towards.refl (h : s.Calm) : Towards cx s s :=
  ⟨h, rfl, fun _ => rfl, rfl, fun _ => .inl rfl⟩

/-- Only branches are worked out on the way. -/
theorem Towards.fields (h : Towards cx s s') (x : TypeHandle) : ∃ r,
    s'.type x = { (s.workedOut cx).type x with resolved := r } := by
  rcases h.type x with he | he
  · refine ⟨(s.type x).resolved, ?_⟩
    rw [he, type_workedOut]
  · exact ⟨_, he⟩

/-- The record of an undecided conditional is as it was. -/
theorem Towards.undecided (h : Towards cx s s') (hs : s.Graph cx) {x : TypeHandle}
    (hx : s'.Undecided x) : s'.type x = s.type x ∧ ∃ pair,
      cx.branchPair s.toModel (s.type x) = some pair := by
  have hbranches : (s'.type x).branches = (s.type x).branches := by
    obtain ⟨r, hr⟩ := h.fields x
    rw [hr, type_workedOut]
  have hpair := hs.branches x (hbranches ▸ hx.2)
  refine ⟨(h.type x).resolve_right fun he => ?_, Option.ne_none_iff_exists'.1 hpair⟩
  rw [type_workedOut] at he
  have hnone := hx.1
  rw [he] at hnone
  exact hpair hnone

theorem run_type {α : Type} {g : TypeExpr → Build α} (h : TypeHandle) :
    (Build.type h >>= g).run s = (g (s.type h)).run s := rfl

/-- Branches resolved among the records there are. -/
theorem run_branches (hcalm : s.Calm) {h : TypeHandle} (hh : s.Undecided h)
    {pair : Option TypeHandle × Option TypeHandle}
    (hpair : cx.branchPair s.toModel (s.type h) = some pair) :
    (Build.branches cx h).run s =
      (.ok (some pair), s.setType h { s.type h with resolved := some pair }) := by
  have hkeep : (Build.modifyType h (fun t => { t with resolved := some pair }) >>= fun _ =>
      (pure (some pair) : Build _)).run s =
        (.ok (some pair), s.setType h { s.type h with resolved := some pair }) := by
    show (_, ({ s with types := s.types.modify h.index _ } : Store)) = _
    rw [Registry.modify_const]
    rfl
  obtain ⟨hnone, hsome⟩ := hh
  unfold Context.branchPair at hpair
  rw [hnone] at hpair
  rw [Build.branches, run_type, hnone]
  cases hb : (s.type h).branches with
  | none => exact absurd hb hsome
  | some source =>
    rw [hb] at hpair
    cases source with
    | records yes no =>
      cases hpair
      exact hkeep
    | ofType ref =>
      dsimp only at hpair
      obtain ⟨yes, hyes, hpair⟩ := Option.bind_eq_some_iff.1 hpair
      obtain ⟨no, hno, hpair⟩ := Option.bind_eq_some_iff.1 hpair
      cases hpair
      -- both branches have records, so asking for them makes none
      have hfirst : (Build.typeRecord cx (.orError (cx.facts.type ref).trueType)).run s =
          (.ok ⟨yes⟩, s) := Build.type_found hcalm hyes
      have hsecond : (Build.typeRecord cx (.orError (cx.facts.type ref).falseType)).run s =
          (.ok ⟨no⟩, s) := Build.type_found hcalm hno
      dsimp only
      rw [run_bind_ok hfirst, run_bind_ok hsecond]
      exact hkeep

/-- **One branch more**: an undecided conditional is resolved. -/
theorem Towards.resolve (h : Towards cx s s') (hs : s.Graph cx) {x : TypeHandle}
    (hx : s'.Undecided x) : ∃ result s'', (Build.branches cx x).run s' = (.ok result, s'') ∧
      Towards cx s s'' ∧ ¬ s''.Undecided x ∧ ∀ y, s''.Undecided y → s'.Undecided y := by
  obtain ⟨hsame, pair, hpair⟩ := h.undecided hs hx
  have hrecord : s'.HasType x := by
    obtain ⟨source, hsource⟩ := Option.ne_none_iff_exists'.1 hx.2
    exact Build.hasType_of_branches hsource
  -- the branches found on the way are those of the worked-out graph
  have hfind : cx.branchPair s'.toModel (s'.type x) = some pair := by
    rw [hsame, ← hpair]
    unfold Context.branchPair
    simp only [h.find]
  have hother : ∀ y, y ≠ x →
      (s'.setType x { s'.type x with resolved := some pair }).type y = s'.type y :=
    fun y hy => type_setType_ne hy
  have hown := type_setType_self (r := { s'.type x with resolved := some pair }) hrecord
  refine ⟨_, _, run_branches h.calm hx hfind, ⟨h.calm, h.members, fun key => ?_, ?_, fun y => ?_⟩,
    fun hund => ?_, fun y hy => ?_⟩
  · exact (Registry.find?_modify ..).trans (h.find key)
  · exact (Registry.size_modify ..).trans h.size
  · by_cases he : y = x
    · subst he
      right
      rw [hown, hsame, type_workedOut, hpair]
    · rw [hother y he]
      exact h.type y
  · have hnone := hund.1
    rw [hown] at hnone
    cases hnone
  · by_cases he : y = x
    · exact he ▸ hx
    · rwa [Undecided, hother y he] at hy

/-- What is worked out is all that changes. -/
theorem later_workedOut (x : TypeHandle) : (s.type x).Later ((s.workedOut cx).type x) := by
  rw [type_workedOut]
  refine ⟨rfl, fun _ h => h, fun pair hpair => ?_, fun hnone => ?_⟩
  · simp only [Context.branchPair, hpair]
  · simp only [Context.branchPair, hnone]
    cases (s.type x).resolved <;> rfl

/-- **What a store on the way shows**: the layouts of the worked-out graph, but for conditionals that
    are still undecided. -/
theorem Towards.layout (hst : st.Steady) (h : Towards cx s s') (x : TypeHandle) :
    st.layout s'.toModel x = st.layout (s.workedOut cx) x ∨ s'.Undecided x ∧ ∃ before rest,
      st.layout s'.toModel x = .seq (before ++ [.stop (.unresolved x)]) ∧
      st.layout (s.workedOut cx) x = .seq (before ++ rest) := by
  have hkind : ∀ p, (s'.type p).kind = ((s.workedOut cx).type p).kind := by
    intro p
    obtain ⟨r, hr⟩ := h.fields p
    rw [hr]
  -- only a conditional shows what was resolved meanwhile
  by_cases hk : ((s.workedOut cx).type x).kind = .conditional
  · rw [st.layout_conditional hk, st.layout_conditional ((hkind x).trans hk)]
    rcases h.type x with he | he
    · rw [he, type_workedOut]
      cases hr : (s.type x).resolved with
      | some pair =>
        have hpair : cx.branchPair s.toModel (s.type x) = some pair := by
          simp only [Context.branchPair, hr]
        left
        rw [hpair, ← hr]
      | none =>
        cases hb : (s.type x).branches with
        | none =>
          have hpair : cx.branchPair s.toModel (s.type x) = none := by
            simp only [Context.branchPair, hr, hb]
          left
          rw [hpair, ← hr]
        | some source =>
          -- undecided on the way: the layout stops at the branches, after the same tokens
          right
          refine ⟨⟨he ▸ hr, ?_⟩, _, _, ?_, rfl⟩
          · rw [he, hb]
            exact Option.some_ne_none source
          · have hstop : Style.branchesOf x (s.type x) = .error (.unresolved x) := by
              simp only [Style.branchesOf, hr, hb]
              rfl
            rw [Layout.conditional, hstop]
    · exact .inl (congrArg _ he)
  · left
    obtain ⟨r, hr⟩ := h.fields x
    refine st.layout_congr (fun c => ?_) hkind hr ?_ hk
    · rw [member_workedOut, Model.member, Model.member, h.members]
    · rcases h.type x with he | he
      · rw [he, hst _ _ (later_workedOut x)]
      · rw [he]

/-- A walk between two tries gives what the worked-out graph gives, or stops. -/
theorem Towards.coincide_walk (hst : st.Steady) (h : Towards cx s s') (n : Nat)
    (active : List TypeHandle) (depth : Nat) (p : Option TypeHandle) : Coincide s'.Undecided
      (st.walk s'.toModel n active depth p) (st.walk (s.workedOut cx) n active depth p) := by
  induction n generalizing active depth p with
  | zero => exact .refl _
  | succ n ih =>
    cases p with
    | none => exact .refl _
    | some x =>
      unfold Style.walk
      split
      · exact .refl _
      · rw [Style.node_eq, Style.node_eq]
        rcases h.layout hst x with he | ⟨hx, before, rest, hcut, hwhole⟩
        · rw [he]
          exact Layout.coincide_render (ih _ _)
        · rw [hcut, hwhole]
          exact Layout.coincide_cut hx (ih _ _) before rest

theorem Towards.coincide_tokens (hst : st.Steady) (h : Towards cx s s') (p : Option TypeHandle) :
    Coincide s'.Undecided (st.tokens s'.toModel p) (st.tokens (s.workedOut cx) p) := by
  unfold Style.tokens
  rw [size_workedOut, ← h.size]
  exact h.coincide_walk hst _ _ _ _

end Store

/-! ## 5. Walks that succeed -/

/-- Different records are no more than there are places for them. -/
theorem length_le_of_lt {α : Type} {index : α → Nat} (hinjective : Function.Injective index)
    {records : List α} (hnodup : records.Nodup) {n : Nat} (hin : ∀ a ∈ records, index a < n) :
    records.length ≤ n := by
  have hsub : records.map index ⊆ List.range n := by
    intro i hi
    obtain ⟨a, ha, rfl⟩ := List.mem_map.1 hi
    exact List.mem_range.2 (hin a ha)
  have hle := (List.subperm_of_subset (hnodup.map hinjective) hsub).length_le
  rwa [List.length_map, List.length_range] at hle

namespace Style

/-- Records without a name of their own are shown by their kind. -/
def byKind (limits : Limits) : Style := { limits, rawText := fun t => t.kind.word }

theorem steady_byKind (limits : Limits) : (byKind limits).Steady := by
  intro t t' h
  rw [h.fields]
  rfl

variable {st : Style} {m : Model}

/-- A record that is not there shows a text. -/
theorem layout_of_size_le {h : TypeHandle} (hh : m.types.size ≤ h.index) :
    st.layout m h = .plain .name (st.rawText {}) := by
  have hempty : m.type h = {} := Registry.recordAt_of_size_le hh
  unfold layout
  dsimp only
  rw [hempty]

/-- A record with parts is there. -/
theorem lt_size_of_part {h : TypeHandle} {p : Option TypeHandle}
    (hp : .part p ∈ (st.layout m h).leaves) : h.index < m.types.size := by
  by_contra hout
  rw [layout_of_size_le (Nat.not_lt.1 hout)] at hp
  cases List.mem_singleton.1 hp

/-- Records open on a path are no more than there are. -/
theorem length_le_size {active : List TypeHandle} (hnodup : active.Nodup)
    (hin : ∀ a ∈ active, a.index < m.types.size) : active.length ≤ m.types.size :=
  length_le_of_lt (fun _ _ hab => congrArg TypeHandle.mk hab) hnodup hin

/-- **A walk over records without stops succeeds**: the open records are distinct, so its fuel lasts. -/
theorem exists_walk {P : TypeHandle → Prop}
    (hstop : ∀ h, P h → ∀ cause, .stop cause ∉ (st.layout m h).leaves)
    (hpart : ∀ h, P h → ∀ h', .part (some h') ∈ (st.layout m h).leaves → P h') {n : Nat}
    {active : List TypeHandle} (hnodup : active.Nodup)
    (hin : ∀ a ∈ active, a.index < m.types.size) (hn : m.types.size + 2 ≤ n + active.length)
    (depth : Nat) {p : Option TypeHandle} (hp : ∀ h, p = some h → P h) :
    ∃ ts, st.walk m n active depth p = .ok ts := by
  induction n generalizing active depth p with
  | zero =>
    have hle := length_le_size hnodup hin
    omega
  | succ n ih =>
    cases p with
    | none => exact ⟨_, rfl⟩
    | some h =>
      unfold walk
      split
      · exact ⟨_, rfl⟩
      · rename_i hactive
        rw [node_eq]
        refine Layout.exists_render (hstop h (hp h rfl)) fun p hleaf => ?_
        have hin' : ∀ a ∈ h :: active, a.index < m.types.size :=
          List.forall_mem_cons.2 ⟨lt_size_of_part hleaf, hin⟩
        refine ih (List.nodup_cons.2 ⟨hactive, hnodup⟩) hin' ?_ _ ?_
        · rw [List.length_cons]
          omega
        · rintro h' rfl
          exact hpart h (hp h rfl) h' hleaf

end Style

namespace Layout

variable {P : Stop → Prop}

/-- **A layout whose stops have a property.** -/
def Stops (P : Stop → Prop) (l : Layout) : Prop := ∀ cause, .stop cause ∈ l.leaves → P cause

/-- A layout without stops. -/
def Goes (l : Layout) : Prop := ∀ cause, .stop cause ∉ l.leaves

@[simp] theorem stops_own (kind : TokenKind) (text : Value) (member : Option MemberHandle) :
    Stops P (.own kind text member) := fun _ h => nomatch List.mem_singleton.1 h

@[simp] theorem stops_part (p : Option TypeHandle) : Stops P (.part p) :=
  fun _ h => nomatch List.mem_singleton.1 h

@[simp] theorem stops_stop {cause : Stop} : Stops P (.stop cause) ↔ P cause := by
  simp [Stops, leaves]

@[simp] theorem stops_plain (kind : TokenKind) (text : String) : Stops P (plain kind text) :=
  stops_own kind (.str text) none

@[simp] theorem stops_punct (text : String) : Stops P (punct text) := stops_plain .punctuation text

@[simp] theorem stops_list {joint : Joint} {ls : List Layout} :
    Stops P (.list joint ls) ↔ ∀ l ∈ ls, Stops P l := by
  unfold Stops
  simp only [leaves_list, List.mem_flatMap]
  exact ⟨fun h l hl cause hc => h cause ⟨l, hl, hc⟩, fun h cause ⟨l, hl, hc⟩ => h l hl cause hc⟩

@[simp] theorem stops_seq {ls : List Layout} : Stops P (seq ls) ↔ ∀ l ∈ ls, Stops P l := stops_list

@[simp] theorem stops_swapped {first second : Layout} :
    Stops P (.swapped first second) ↔ Stops P first ∧ Stops P second := by
  unfold Stops
  simp only [leaves, List.mem_append, or_imp]
  exact forall_and

@[simp] theorem stops_enclosed {l : Layout} : Stops P (.enclosed l) ↔ Stops P l := Iff.rfl

@[simp] theorem stops_signature {l : Layout} : Stops P (.signature l) ↔ Stops P l := Iff.rfl

@[simp] theorem stops_parameter (p : Parameter) : Stops P (parameter p) := by
  unfold parameter
  cases p.rest <;> cases p.optional <;> simp

@[simp] theorem stops_parameters (ps : List Parameter) : Stops P (parameters ps) := by
  simp [parameters]

@[simp] theorem stops_typeParameter (p : TypeParameter) : Stops P (typeParameter p) := by
  unfold typeParameter
  cases p.constraint <;> cases p.default <;> simp [optionalPart]

@[simp] theorem stops_function (t : TypeExpr) : Stops P (function t) := by
  unfold function
  cases t.typeParameters with
  | none => simp [generics]
  | some ps => cases ps <;> simp [generics]

@[simp] theorem stops_wrapped (m : Model) (p : Option TypeHandle) : Stops P (wrapped m p) := by
  unfold wrapped
  cases p with
  | none => simp
  | some h =>
    dsimp only
    split <;> simp

theorem stops_operand (m : Model) (other : TypeKind) {p : Option TypeHandle}
    (hnull : p = none → P (.fault .noField)) : Stops P (operand m other p) := by
  unfold operand
  cases p with
  | none => simpa using hnull rfl
  | some h =>
    dsimp only
    split <;> simp

theorem stops_operands (m : Model) {t : TypeExpr} (hnull : none ∈ t.operands.getD [] → P (.fault .noField)) :
    Stops P (operands m t) := by
  refine stops_list.2 fun l hl => ?_
  obtain ⟨p, hp, rfl⟩ := List.mem_map.1 hl
  exact stops_operand m _ fun he => hnull (he ▸ hp)

theorem stops_objectMember {m : Model}
    (hname : ∀ c, (∀ text, (m.member c).name ≠ .str text) → P (.fault .notText)) (h : MemberHandle) :
    Stops P (objectMember m (some h)) := by
  have hproperty : Stops P (propertyName h (m.member h)) := by
    unfold propertyName
    split
    · exact stops_own _ _ _
    · rename_i hother
      exact stops_stop.2 (hname h hother)
  have htype : ∀ l ∈ propertyType (m.member h), Stops P l := by
    unfold propertyType
    cases (m.member h).type with
    | none => simp
    | some t => cases (m.member h).has .optional <;> simp
  have hkey : ∀ ps, ∀ l ∈ indexKey ps, Stops P l := by
    intro ps
    cases ps <;> simp [indexKey]
  unfold objectMember
  dsimp only
  cases (m.member h).kind with
  | indexSignature => simpa [or_imp, forall_and] using hkey _
  | method => simpa using hproperty
  | function => simpa using hproperty
  | callSignature => simp
  | constructor => simp
  | _ => exact stops_seq.2 (List.forall_mem_cons.2 ⟨hproperty, htype⟩)

end Layout

/-- **Where a record stops the walk**: at a missing operand or member, at a name that is no text, and at
    branches of its own that are not resolved. -/
theorem Style.stops_layout {st : Style} {m : Model} {P : Stop → Prop} {h : TypeHandle}
    (hoperands : none ∈ (m.type h).operands.getD [] → P (.fault .noField))
    (hmembers : none ∈ (m.type h).members.getD [] → P (.fault .noField))
    (hname : ∀ c, (∀ text, (m.member c).name ≠ .str text) → P (.fault .notText))
    (hbranches : ∀ cause, (m.type h).kind = .conditional → Style.branchesOf h (m.type h) = .error cause →
      P cause) :
    (st.layout m h).Stops P := by
  have hnamed : ∀ t, (st.nameLayout m t).Stops P := by
    intro t
    unfold Style.nameLayout
    cases t.member <;> simp
  unfold Style.layout
  dsimp only
  cases hk : (m.type h).kind with
  | conditional =>
    dsimp only
    unfold Layout.conditional
    cases hb : Style.branchesOf h (m.type h) with
    | ok pair => simp
    | error cause => simpa using hbranches cause hk hb
  | enumMemberRef =>
    dsimp only
    split <;> simp [hnamed]
  | union => exact Layout.stops_operands m hoperands
  | intersection => exact Layout.stops_operands m hoperands
  | anonymousObject =>
    dsimp only
    unfold Layout.object
    split
    · simp
    · simp only [Layout.stops_seq, Layout.stops_list, List.forall_mem_cons, Layout.stops_punct,
        List.forall_mem_map, List.not_mem_nil, false_imp_iff, implies_true, and_true, true_and]
      intro c hc
      cases c with
      | none => exact Layout.stops_stop.2 (hmembers hc)
      | some c => exact Layout.stops_objectMember hname c
  | templateLiteral =>
    simp only [Layout.template, Layout.stops_seq, List.forall_mem_cons, List.forall_mem_append,
      Layout.stops_plain, List.forall_mem_map, List.not_mem_nil, false_imp_iff, implies_true,
      and_true, true_and]
    intro span _
    cases span <;> simp [Layout.span]
  | _ => simp [hnamed]

namespace Store

variable {cx : Context} {s : Store} {st : Style}

/-- **Nothing stops the walk over a worked-out graph.** -/
theorem Graph.goes_layout (hs : s.Graph cx) (h : TypeHandle) : (st.layout (s.workedOut cx) h).Goes := by
  refine Style.stops_layout (P := fun _ => False) (fun hnull => ?_) (fun hnull => ?_) (fun c hother => ?_) fun cause _ hcause => ?_
  · rw [type_workedOut] at hnull
    exact hs.operands h hnull
  · rw [type_workedOut] at hnull
    exact hs.members h hnull
  · obtain ⟨text, htext⟩ := hs.names c
    exact hother text htext
  · rw [type_workedOut] at hcause
    unfold Style.branchesOf at hcause
    dsimp only at hcause
    cases hpair : cx.branchPair s.toModel (s.type h) with
    | some pair =>
      rw [hpair] at hcause
      exact nomatch hcause
    | none =>
      have hb : (s.type h).branches = none := by
        by_contra hb
        exact hs.branches h hb hpair
      rw [hpair, hb] at hcause
      exact nomatch hcause

/-- **The walk over a worked-out graph succeeds.** -/
theorem Graph.exists_tokens (hs : s.Graph cx) (p : Option TypeHandle) :
    ∃ ts, st.tokens (s.workedOut cx) p = .ok ts :=
  Style.exists_walk (P := fun _ => True) (fun h _ => hs.goes_layout h) (fun _ _ _ _ => trivial)
    List.nodup_nil (fun _ h => absurd h List.not_mem_nil) (Nat.le_refl _) 0 fun _ _ => trivial

end Store

/-! ## 6. Tries -/

namespace Build

variable {cx : Context} {s : Store} {α : Type} {render : Model → Rendering α} {a : α}

/-- The conditionals that are still to be resolved. -/
def undecided (s : Store) : Finset Nat :=
  (Finset.range s.types.size).filter fun i => s.Undecided ⟨i⟩

theorem card_undecided_lt {s' s'' : Store} (hs' : s.Towards cx s') (hs'' : s.Towards cx s'')
    {x : TypeHandle} (hx : s'.Undecided x) (hdone : ¬ s''.Undecided x)
    (hless : ∀ y, s''.Undecided y → s'.Undecided y) :
    (undecided s'').card < (undecided s').card := by
  have hrecord : s'.HasType x := by
    obtain ⟨source, hsource⟩ := Option.ne_none_iff_exists'.1 hx.2
    exact hasType_of_branches hsource
  have hsize : s''.types.size = s'.types.size := hs''.size.trans hs'.size.symm
  refine Finset.card_lt_card (Finset.ssubset_iff_of_subset (fun i hi => ?_) |>.2 ⟨x.index, ?_, ?_⟩)
  · rw [undecided, Finset.mem_filter, Finset.mem_range] at hi ⊢
    exact ⟨hsize ▸ hi.1, hless _ hi.2⟩
  · exact Finset.mem_filter.2 ⟨Finset.mem_range.2 hrecord, hx⟩
  · exact fun hi => hdone (Finset.mem_filter.1 hi).2

/-- **The tries end**: every one that stops resolves a record more. -/
theorem exists_run_settledWithin (hs : s.Graph cx) (hwhole : render (s.workedOut cx) = .ok a)
    (hrender : ∀ s', s.Towards cx s' → Coincide s'.Undecided (render s'.toModel) (render (s.workedOut cx)))
    (n : Nat) {s' : Store} (hs' : s.Towards cx s') (hn : (undecided s').card < n) :
    ∃ s'', (settledWithin cx render n).run s' = (.ok a, s'') := by
  induction n generalizing s' with
  | zero => exact absurd hn (Nat.not_lt_zero _)
  | succ n ih =>
    rw [settledWithin, run_get]
    rcases hrender s' hs' with he | ⟨x, hx, hund⟩
    · rw [he, hwhole]
      exact ⟨s', rfl⟩
    · rw [hx]
      obtain ⟨result, s'', hrun, hs'', hdone, hless⟩ := hs'.resolve hs hund
      obtain ⟨s₃, hs₃⟩ : ∃ s₃, (settledWithin cx render n).run s'' = (.ok a, s₃) := by
        exact ih hs'' (Nat.lt_of_lt_of_le (card_undecided_lt hs' hs'' hund hdone hless)
          (Nat.le_of_lt_succ hn))
      exact ⟨s₃, (run_bind_ok hrun).trans hs₃⟩

/-- **A rendering that resolves the branches it meets** gives what the worked-out graph shows. -/
theorem exists_run_settled (hs : s.Graph cx) (hwhole : render (s.workedOut cx) = .ok a)
    (hrender : ∀ s', s.Towards cx s' →
      Coincide s'.Undecided (render s'.toModel) (render (s.workedOut cx))) :
    ∃ s', (settled cx render).run s = (.ok a, s') := by
  rw [settled, run_get]
  refine exists_run_settledWithin hs hwhole hrender _ (.refl hs.calm) ?_
  have hcard : (undecided s).card ≤ s.types.size :=
    (Finset.card_filter_le _ _).trans_eq (Finset.card_range _)
  omega

/-- **The tokens of a type record of a finished graph.** -/
theorem exists_run_tokens {st : Style} (hst : st.Steady) (hs : s.Graph cx) (p : Option TypeHandle) :
    ∃ ts s', (settled cx (st.tokens · p)).run s = (.ok ts, s') ∧
      st.tokens (s.workedOut cx) p = .ok ts := by
  obtain ⟨ts, hts⟩ := hs.exists_tokens p
  have hrun : ∃ s', (settled cx (st.tokens · p)).run s = (.ok ts, s') :=
    exists_run_settled hs hts fun s' h => h.coincide_tokens hst p
  obtain ⟨s', hrun⟩ := hrun
  exact ⟨ts, s', hrun, hts⟩

end Build

end ApiReference
