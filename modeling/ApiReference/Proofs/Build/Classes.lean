/-
  The filling of a class or interface.

  A class asks for the members of its two sides one after the other, and makes a view of each that it
  does not declare.  Meanwhile other records may be filled, and these may even ask for the class; none of
  them writes what the class lists, and none lists a view that the class made.  So the class ends up with
  one entry for each symbol, and nobody else has its views.

  1. `Store.Fresh`       -- members that nobody lists so far;
  2. entries             -- one symbol, one that may be there, a list;
  3. `Store.Gathering`   -- a class with what it lists so far;
  4. the instance side;
  5. the static side;
  6. `runs_fillClass`.
-/
import ApiReference.Proofs.Build.Fields

namespace ApiReference

/-! ## 1. Fresh members -/

/-- **Members that may come to be listed**: those without a key were made from a position on, nobody
    lists them, and they are all different. -/
structure Store.Fresh (n : Nat) (s : Store) (vs : List MemberHandle) : Prop where
  inside : ∀ v ∈ vs, s.HasMember v
  new : ∀ v ∈ s.views vs, n ≤ v.index ∧ s.Unlisted v
  distinct : (s.views vs).Nodup

namespace Store

variable {n m : Nat} {c : Scope} {s s' : Store} {v : MemberHandle} {vs ws : List MemberHandle}

theorem mem_views : v ∈ s.views vs ↔ v ∈ vs ∧ s.members.keyAt v.index = none := by
  unfold views
  rw [List.mem_filter, Option.isNone_iff_eq_none]

theorem views_append : s.views (vs ++ ws) = s.views vs ++ s.views ws := List.filter_append ..

/-- What has a key has it for good. -/
theorem views_grows (hg : s.Grows s') (hin : ∀ v ∈ vs, s.HasMember v) : s'.views vs = s.views vs := by
  refine List.filter_congr fun v hv => ?_
  rw [hg.members.keyAt _ (hin v hv)]

/-- Views made before a position differ from those made after it. -/
theorem nodup_views_append (hvs : (s.views vs).Nodup) (hws : (s.views ws).Nodup)
    (hlt : ∀ v ∈ vs, v.index < n) (hle : ∀ w ∈ s.views ws, n ≤ w.index) :
    (s.views (vs ++ ws)).Nodup := by
  rw [views_append]
  refine List.nodup_append.2 ⟨hvs, hws, fun v hv w hw => ?_⟩
  have hv' := hlt v (mem_views.1 hv).1
  have hw' := hle w hw
  rintro rfl
  omega

namespace Fresh

theorem nil : s.Fresh n [] := ⟨fun _ h => absurd h List.not_mem_nil,
  fun _ h => absurd h List.not_mem_nil, List.nodup_nil⟩

/-- A registered member may be listed. -/
theorem keyed {k : Option SymbolId} (hv : s.IsMember k v) : s.Fresh n [v] := by
  have hnone : s.views [v] = [] := by
    refine List.filter_eq_nil_iff.2 fun w hw => ?_
    rw [List.mem_singleton.1 hw, Registry.keyAt_of_find? hv]
    exact Bool.false_ne_true
  refine ⟨fun w hw => ?_, fun w hw => ?_, ?_⟩
  · rw [List.mem_singleton.1 hw]
    exact hv.inside
  · rw [hnone] at hw
    exact absurd hw List.not_mem_nil
  · rw [hnone]
    exact List.nodup_nil

/-- So may a view that was just made. -/
theorem copy {d : Copy} (hd : s.NewCopy d s') (hn : n ≤ s.members.size) : s'.Fresh n [d.target] := by
  refine ⟨fun w hw => ?_, fun w hw => ?_, (List.pairwise_singleton ..).filter _⟩
  · rw [List.mem_singleton.1 hw]
    exact hd.inside
  · rw [List.mem_singleton.1 (mem_views.1 hw).1]
    exact ⟨Nat.le_trans hn hd.new, hd.unlisted⟩

theorem le (h : s.Fresh m vs) (hn : n ≤ m) : s.Fresh n vs :=
  ⟨h.inside, fun v hv => ⟨Nat.le_trans hn (h.new v hv).1, (h.new v hv).2⟩, h.distinct⟩

/-- The order does not matter. -/
theorem perm (h : s.Fresh n vs) (hp : ws.Perm vs) : s.Fresh n ws where
  inside := fun v hv => h.inside v (hp.mem_iff.1 hv)
  new := fun v hv => h.new v ((hp.filter _).mem_iff.1 hv)
  distinct := (hp.filter _).nodup_iff.2 h.distinct

/-- **What is asked for meanwhile** lists none of them. -/
theorem framed (h : s.Fresh n vs) (hf : s.Framed s') : s'.Fresh n vs where
  inside := fun v hv => (h.inside v hv).mono hf.grows.extends
  new := by
    intro v hv
    rw [views_grows hf.grows h.inside] at hv
    obtain ⟨hin, hkey⟩ := mem_views.1 hv
    obtain ⟨hn, hunlisted⟩ := h.new v hv
    exact ⟨hn, hf.lists.unlisted hf.grows (h.inside v hin) (h.inside v hin) hkey hunlisted⟩
  distinct := by
    rw [views_grows hf.grows h.inside]
    exact h.distinct

/-- **More members, made after the first ones.** -/
theorem append (h : s.Fresh n vs) (hf : s.Framed s') (hn : n ≤ s.members.size)
    (h' : s'.Fresh s.members.size ws) : s'.Fresh n (vs ++ ws) where
  inside := fun v hv =>
    (List.mem_append.1 hv).elim ((h.framed hf).inside v) (h'.inside v)
  new := by
    intro v hv
    rw [views_append] at hv
    exact (List.mem_append.1 hv).elim ((h.framed hf).new v) ((h'.le hn).new v)
  distinct := nodup_views_append (h.framed hf).distinct h'.distinct h.inside fun w hw => (h'.new w hw).1

end Fresh

end Store

namespace Build

variable {cx : Context} {r : Requests} {n : Nat} {c : Scope} {s : Store} {h : MemberHandle}

/-! ## 2. Entries -/

/-- The id of a view is known as soon as the class has its own. -/
theorem run_viewId {symbol : SymbolId} (hin : s.HasMember h)
    (hid : (s.member h).id = cx.facts.symbolId symbol) (prop : SymbolId) :
    (viewId cx h prop).run (s.addMember none) =
      (.ok (cx.facts.symbolId symbol ++ "." ++ (cx.facts.symbol prop).escapedName), s.addMember none) := by
  have hsame : (s.addMember none).member h = s.member h :=
    (Registry.recordAt_push ..).trans (if_neg (Nat.ne_of_lt hin))
  show (Except.ok (((s.addMember none).member h).id ++ "." ++ _), _) = _
  rw [hsame, hid]

section Entries

variable (hr : r.Lawful cx n) (hm : c.member = some h)
include hr hm

/-- **A class lists a member itself, or a view of it.** -/
theorem asks_ownOrView {symbol : SymbolId} (hid : (s.member h).id = cx.facts.symbolId symbol)
    {prop : Option SymbolId} (hprop : cx.facts.SymbolKey prop) :
    Asks cx n c s (ownOrView cx r symbol h prop) (fun v s' => ∃ p, present prop = .ok p ∧
      s'.IsEntry cx.facts .instance_ h symbol p v ∧ s'.Fresh s.members.size [v]) := by
  unfold ownOrView
  refine .sound fun _ hc => Moves.bind (hr.asks_member hprop).noting fun child s₁ ho ⟨hframed, hchild⟩ => ?_
  have hin := (hc.member h hm).1
  refine Runs.ask (gives_present prop) fun p hpresent hp => Runs.sound fun _ hc₁ => ?_
  subst hp
  refine Runs.branch (fun hown => Moves.pure ⟨p, rfl, ?_, .keyed hchild⟩) fun hforeign => ?_
  · unfold Store.IsEntry
    rw [if_pos hown]
    exact hchild
  · have hid₁ := run_viewId (hin.mono ho.extends) ((congrArg Member.id (hframed.member h hin)).trans hid) p
    refine (Asks.view (a := fun id => .asInherited child id) (hc₁.depth hm) hchild hid₁
      hchild.inside (fun _ => nofun)).mono fun v s₂ ho₂ hv => ⟨p, rfl, ?_, .copy hv ho.grows.members.size⟩
    unfold Store.IsEntry
    rw [if_neg hforeign]
    exact ⟨hv.inside, hv.key, child, ho₂.upholds.isMember hchild, hv.copied⟩

theorem asks_pseudoMember {symbol : SymbolId} (hid : (s.member h).id = cx.facts.symbolId symbol)
    {found : Option SymbolId} (hfound : cx.facts.SymbolKey found) :
    Asks cx n c s (pseudoMember cx r symbol h found) (fun vs s' =>
      List.Forall₂ (s'.IsEntry cx.facts .instance_ h symbol) found.toList vs ∧
        s'.Fresh s.members.size vs) := by
  unfold pseudoMember
  cases found with
  | none => exact .pure ⟨.nil, .nil⟩
  | some t =>
    refine Moves.bind (asks_ownOrView hr hm hid hfound) fun v s' _ ⟨p, hp, hentry, hfresh⟩ => .pure ⟨?_, hfresh⟩
    cases hp
    exact .cons hentry .nil

/-- **One entry for each of several symbols.** -/
theorem asks_entries {symbol : SymbolId} (hid : (s.member h).id = cx.facts.symbolId symbol)
    {props : List (Option SymbolId)} (hprops : ∀ p ∈ props, cx.facts.SymbolKey p) :
    Asks cx n c s (props.mapM (ownOrView cx r symbol h)) (fun vs s' =>
      ∃ ps, props.mapM present = .ok ps ∧
        List.Forall₂ (s'.IsEntry cx.facts .instance_ h symbol) ps vs ∧
        s'.Fresh s.members.size vs) := by
  induction props generalizing s with
  | nil => exact .pure ⟨[], rfl, .nil, .nil⟩
  | cons prop rest ih =>
    rw [List.mapM_cons]
    refine .sound fun _ hc => ?_
    have hin := (hc.member h hm).1
    refine Moves.bind (asks_ownOrView hr hm hid (hprops prop List.mem_cons_self)).noting
      fun v s₁ _ ⟨hframed₁, p, hp, hentry, hfresh⟩ => ?_
    have hid₁ := (congrArg Member.id (hframed₁.member h hin)).trans hid
    refine Moves.bind (ih hid₁ fun p hp => hprops p (List.mem_cons_of_mem prop hp)).noting
      fun vs s₂ ho₂ ⟨hframed₂, ps, hps, hentries, hrest⟩ => .pure ?_
    refine ⟨p :: ps, mapM_present_cons hp hps, .cons (ho₂.upholds.isEntry hentry) hentries, ?_⟩
    exact hfresh.append hframed₂ hframed₁.grows.members.size hrest

end Entries

end Build

/-! ## 3. Classes with what they list so far -/

theorem MemberKind.isPlain_of_isInheriting {kind : MemberKind} (h : kind.isInheriting = true) :
    kind.isPlain = true ∧ kind.isContainer = false := by
  cases kind <;> first | exact ⟨rfl, rfl⟩ | exact nomatch h

/-- The common fields of a member and what it lists are as they were. -/
structure Store.Holds (h : MemberHandle) (s s' : Store) : Prop where
  core : s.SameCore h s'
  members : (s'.member h).members = (s.member h).members

/-- **A class on its way**: it has its common fields, and lists some members so far. -/
structure Store.Gathering (s : Store) (cx : Context) (c : Scope) (h : MemberHandle) (symbol : SymbolId)
    (vs : List MemberHandle) : Prop where
  based : ∃ declaration kind, kind.isInheriting = true ∧
    s.Based cx c h symbol declaration kind (cx.facts.symbol symbol).comment.docs id
  listed : (s.member h).members = some (vs.map some)
  distinct : (s.views vs).Nodup

section Gathering

variable {cx : Context} {n m : Nat} {c : Scope} {s s' : Store} {h : MemberHandle} {symbol : SymbolId}
variable {α : Type} {x : Build α} {P : α → Store → Prop} {vs ws : List MemberHandle}

theorem Store.Framed.holds (hf : s.Framed s') (hh : s.HasMember h) : s.Holds h s' := by
  have hsame := hf.member h hh
  exact ⟨congrArg Member.core hsame, congrArg Member.members hsame⟩

/-- What is asked for leaves the class that is filled alone. -/
theorem Asks.holds (hm : c.member = some h) (hx : Asks cx n c s x P) :
    Moves (Store.Holds h) cx n c s x P :=
  Runs.sound fun _ hc => Runs.mono hx fun _ _ _ hp => ⟨hp.1.holds (hc.member h hm).1, hp.2⟩

/-- A field written beside these. -/
theorem holds_modifies (hm : c.member = some h) {f : Member → Member} (hbeside : ∀ m, (f m).Beside m)
    (hf : ∀ m : Member, m.Refers s.toModel → (f m).Refers s.toModel) :
    Moves (Store.Holds h) cx n c s (Build.modifyMember h f) (fun _ _ => True) := by
  refine Runs.sound fun _ hc => Runs.mono (Runs.modifyMember hm (fun m => (hbeside m).standing)
    (fun m => (hbeside m).members) (fun m => (hbeside m).overrides) hf) fun _ s' _ he => ⟨⟨?_, ?_⟩, trivial⟩
  · unfold Store.SameCore
    rw [he, Store.member_setMember_self (hc.member h hm).1]
    exact (hbeside _).core
  · rw [he, Store.member_setMember_self (hc.member h hm).1]
    exact (hbeside _).members

theorem Store.Gathering.onward (hg : s.Gathering cx c h symbol vs) (ho : c.Onward s s')
    (hh : s.Holds h s') : s'.Gathering cx c h symbol vs where
  based := by
    obtain ⟨declaration, kind, hkind, hb⟩ := hg.based
    exact ⟨declaration, kind, hkind, hb.onward ho hh.core⟩
  listed := hh.members.trans hg.listed
  distinct := hg.distinct.sublist (Store.Upholds.views_sublist ho.grows vs)

theorem Store.Gathering.id (hg : s.Gathering cx c h symbol vs) :
    (s.member h).id = cx.facts.symbolId symbol := by
  obtain ⟨_, _, -, hb⟩ := hg.based
  exact hb.id

theorem Store.Gathering.inside (hg : s.Gathering cx c h symbol vs) (hs : s.Sound) :
    ∀ v ∈ vs, s.HasMember v :=
  fun v hv => (hs.member h).members _ hg.listed (some v) (List.mem_map_of_mem hv) v rfl

theorem Moves.gathering (hx : Moves (Store.Holds h) cx n c s x P) (hg : s.Gathering cx c h symbol vs) :
    Runs cx n c s x (fun a s' => s'.Gathering cx c h symbol vs ∧ P a s') :=
  Runs.mono hx fun _ _ ho hp => ⟨hg.onward ho hp.1, hp.2⟩

/-- **A class lists fresh members after the others**; which ones, and in what order, may depend on the
    store. -/
theorem runs_list (hm : c.member = some h) (ws : Store → List MemberHandle)
    (hg : s.Gathering cx c h symbol vs) (hfresh : s.Fresh m (ws s)) (hown : c.members ≤ m)
    (hbefore : ∀ v ∈ vs, v.index < m) :
    Runs cx n c s (modify fun s => { s with members := s.members.modify h.index fun x => { x with
      members := some (x.members.getD [] ++ (ws s).map some) } })
      (fun _ s' => s'.Gathering cx c h symbol (vs ++ ws s)) := by
  refine .sound fun _ hc => ?_
  have hin := (hc.member h hm).1
  refine (Runs.writeMember (s := s) (f := fun s x => { x with
    members := some (x.members.getD [] ++ (ws s).map some) }) hm (fun _ hrefers =>
      hrefers.listing (hrefers.members.append fun x hx => ?_)) (.inl (Member.standing_listing _ _))
      (fun v hv => ?_) (Store.mayLink_of_overrides rfl)).mono fun _ s' ho he => ⟨?_, ?_, ?_⟩
  · obtain ⟨w, hw, rfl⟩ := List.mem_map.1 hx
    exact .some (hfresh.inside w hw)
  · rcases List.mem_append.1 hv with hold | hnew
    · exact .inl hold
    · obtain ⟨w, hw, he⟩ := List.mem_map.1 hnew
      cases he
      -- a registered member may be listed anywhere, a view only by the class it was made for
      by_cases hkey : s.members.keyAt v.index = none
      · obtain ⟨hle, hunlisted⟩ := hfresh.new v (Store.mem_views.2 ⟨hw, hkey⟩)
        exact .inr (.inr ⟨Nat.le_trans hown hle, hunlisted⟩)
      · exact .inr (.inl hkey)
  · obtain ⟨declaration, kind, hkind, hb⟩ := hg.based
    refine ⟨declaration, kind, hkind, hb.onward ho ?_⟩
    unfold Store.SameCore
    rw [he, Store.member_setMember_self hin]
    rfl
  · rw [he, Store.member_setMember_self hin, hg.listed, List.map_append]
    rfl
  · refine List.Nodup.sublist (Store.Upholds.views_sublist ho.grows _) ?_
    exact Store.nodup_views_append hg.distinct hfresh.distinct hbefore fun w hw => (hfresh.new w hw).1

end Gathering

namespace Build

variable {cx : Context} {r : Requests} {n : Nat} {c : Scope} {s : Store} {h : MemberHandle}
variable (hf : cx.facts.Closed) (hr : r.Lawful cx n) (hm : c.member = some h)
variable {symbol : SymbolId} {vs : List MemberHandle}

/-! ## 4. The instance side -/

/-- **The members of the instance side are listed** in the order that they have at that point. -/
theorem runs_listShown (hm : c.member = some h) {m : Nat} {all made : List MemberHandle}
    (shown : Model → List MemberHandle) (hshown : ∀ mo, (shown mo).Perm all)
    (hg : s.Gathering cx c h symbol []) (hfresh : s.Fresh m made) (hown : c.members ≤ m)
    (hperm : all.Perm made) :
    Runs cx n c s (modify fun s => { s with members := s.members.modify h.index fun c =>
        { c with members := some (c.members.getD [] ++ (shown s.toModel).map some) } })
      (fun _ s' => ∃ listed, s'.Gathering cx c h symbol listed ∧ listed.Perm all) := by
  have hlisted := hshown s.toModel
  refine (runs_list hm (fun s => shown s.toModel) hg (hfresh.perm (hlisted.trans hperm)) hown
    fun v hv => absurd hv List.not_mem_nil).mono fun _ s' _ hg' => ⟨shown s.toModel, ?_, hlisted⟩
  rwa [List.nil_append] at hg'

include hf hr hm

/-- **The instance side of a class**: one entry for each symbol, sorted or not. -/
theorem runs_fillInstanceSide {declared : TypeRef}
    (htype : cx.instanceType symbol = .ok (some declared))
    (hdeclared : cx.facts.TypeKey (some declared)) (hg : s.Gathering cx c h symbol []) :
    Runs cx n c s (fillInstanceSide cx r symbol declared h) (fun _ s' =>
      ∃ shown, s'.Gathering cx c h symbol shown ∧ s'.OnInstance cx h symbol shown) := by
  unfold fillInstanceSide
  have ht := hf.type declared
  refine Runs.bind (Moves.gathering (Asks.holds hm (hr.asks_type hdeclared)) hg)
    fun t s₁ _ ⟨hg₁, hrecord⟩ => ?_
  refine Runs.bind (Moves.gathering (holds_modifies hm (fun _ => ⟨rfl, rfl, rfl⟩) fun _ hc =>
    { hc with declaredType := .some hrecord.inside }) hg₁) fun _ s₂ _ ⟨hg₂, _⟩ => ?_
  refine Runs.bind (Moves.gathering (Asks.holds hm (asks_typeParameters hf hr _)) hg₂)
    fun generics s₃ _ ⟨hg₃, hgenerics⟩ => ?_
  refine Runs.bind (Moves.gathering (holds_modifies hm (fun _ => ⟨rfl, rfl, rfl⟩) fun _ hc =>
    { hc with typeParameters := Store.genericsIn_of_rel hgenerics }) hg₃) fun _ s₄ _ ⟨hg₄, _⟩ => ?_
  refine Runs.bind (Moves.gathering (Asks.holds hm (asks_types hr ht.baseTypes)) hg₄)
    fun bases s₅ _ ⟨hg₅, hbases⟩ => ?_
  refine Runs.bind (Moves.gathering (holds_modifies hm (fun _ => ⟨rfl, rfl, rfl⟩) fun _ hc =>
    { hc with extends_ := .of_handles hbases }) hg₅) fun _ s₆ _ ⟨hg₆, _⟩ => ?_
  refine Runs.ask (Context.gives_propertiesOf hf _) fun props _ ⟨hproperties, hprops⟩ => .sound fun _ hc => ?_
  have hin := (hc.member h hm).1
  refine Runs.bind (asks_entries hr hm hg₆.id hprops)
    fun members s₇ ho₇ ⟨hframed₇, ps, hps, hmembers, hfresh₇⟩ => ?_
  have hg₇ := hg₆.onward ho₇ (hframed₇.holds hin)
  refine Runs.ask (Context.gives_lookupMember hf _ _) fun call _ ⟨hcall, hcallKey⟩ => ?_
  refine Runs.bind (asks_pseudoMember hr hm hg₇.id hcallKey)
    fun calls s₈ ho₈ ⟨hframed₈, hcalls, hfresh₈⟩ => ?_
  have hg₈ := hg₇.onward ho₈ (hframed₈.holds (hin.mono ho₇.extends))
  refine Runs.ask (gives_constructorOf hf declared) fun constructor _ ⟨hconstructor, hconstructorKey⟩ => ?_
  refine Runs.bind (asks_pseudoMember hr hm hg₈.id hconstructorKey)
    fun constructors s₉ ho₉ ⟨hframed₉, hconstructors, hfresh₉⟩ => ?_
  have hg₉ := hg₈.onward ho₉ (hframed₉.holds (hin.mono (ho₇.trans ho₈).extends))
  refine Runs.ask (Context.gives_lookupMember hf _ _) fun index _ ⟨hindex, hindexKey⟩ => ?_
  refine Runs.bind (asks_pseudoMember hr hm hg₉.id hindexKey)
    fun indexes s' ho' ⟨hframed', hindexes, hfresh'⟩ => ?_
  have hg' := hg₉.onward ho' (hframed'.holds (hin.mono ((ho₇.trans ho₈).trans ho₉).extends))
  -- the entries in the order in which they were made
  have hle₇ : s₆.members.size ≤ s₇.members.size := ho₇.grows.members.size
  have hle₈ : s₆.members.size ≤ s₈.members.size := (ho₇.trans ho₈).grows.members.size
  have hle₉ : s₆.members.size ≤ s₉.members.size := ((ho₇.trans ho₈).trans ho₉).grows.members.size
  have hfresh := ((hfresh₇.append hframed₈ hle₇ hfresh₈).append hframed₉ hle₈ hfresh₉).append hframed' hle₉
    hfresh'
  -- the order in which they are listed is another: constructor and call come first
  have hmade : (constructors ++ calls ++ members ++ indexes).Perm
      (members ++ calls ++ constructors ++ indexes) := by
    refine List.Perm.append_right _ ?_
    exact (List.perm_append_comm).trans (by
      rw [List.append_assoc]
      exact List.Perm.append_left _ List.perm_append_comm)
  have hentries : List.Forall₂ (s'.IsEntry cx.facts .instance_ h symbol)
      (constructor.toList ++ call.toList ++ ps ++ index.toList)
      (constructors ++ calls ++ members ++ indexes) := by
    refine List.rel_append (List.rel_append (List.rel_append ?_ ?_) ?_) hindexes
    · exact hconstructors.imp fun _ _ => ho'.upholds.isEntry
    · exact hcalls.imp fun _ _ => (ho₉.trans ho').upholds.isEntry
    · exact hmembers.imp fun _ _ => ((ho₈.trans ho₉).trans ho').upholds.isEntry
  refine (runs_listShown hm (fun m => if cx.settings.sort then
    sortMembers m (constructors ++ calls ++ members ++ indexes)
      else constructors ++ calls ++ members ++ indexes) (fun m => perm_shown m cx.settings.sort _)
    hg' hfresh hc.members hmade).mono fun _ s'' ho'' ⟨shown, hg'', hperm⟩ => ⟨shown, hg'', ?_⟩
  refine ⟨_, _, Context.instanceSymbols_some htype hconstructor hcall hproperties hps hindex, ?_, hperm⟩
  exact hentries.imp fun _ _ => ho''.upholds.isEntry

/-! ## 5. The static side -/

omit hf hr hm in
/-- The member is shown before it is listed. -/
theorem fillStatic_eq (symbol prop : SymbolId) : fillStatic cx r symbol h prop =
    r.member (some prop) >>= fun own =>
      (if cx.facts.parentOf prop = some symbol then Pure.pure own else do
        let view ← newMember
        copyMember own view (.asStatic h (← viewId cx h prop))
        Pure.pure view) >>= fun shown =>
      modifyMember h (fun c => { c with members := some (c.members.getD [] ++ [some shown]) }) := by
  unfold fillStatic
  congr 1
  funext own
  dsimp only
  split
  · rfl
  · simp only [bind_assoc]

omit hf in
/-- **One static entry.** -/
theorem runs_fillStatic (hg : s.Gathering cx c h symbol vs) {prop : SymbolId}
    (hprop : cx.facts.SymbolKey (some prop)) :
    Runs cx n c s (fillStatic cx r symbol h prop) (fun _ s' => ∃ v,
      s'.Gathering cx c h symbol (vs ++ [v]) ∧ s'.IsEntry cx.facts .static_ h symbol prop v) := by
  rw [fillStatic_eq]
  refine .sound fun _ hc => ?_
  have hin := (hc.member h hm).1
  refine Runs.bind (hr.asks_member hprop) fun own s₁ ho₁ ⟨hframed₁, hown⟩ => .sound fun hs₁ hc₁ => ?_
  have hin₁ := hin.mono ho₁.extends
  have hg₁ := hg.onward ho₁ (hframed₁.holds hin)
  -- a symbol of the class itself is shown by its own record, any other by a view of it
  have hshown : Asks cx n c s₁ (if cx.facts.parentOf prop = some symbol then Pure.pure own else do
      let view ← newMember
      copyMember own view (.asStatic h (← viewId cx h prop))
      Pure.pure view) (fun v s' => s'.IsEntry cx.facts .static_ h symbol prop v ∧
        s'.Fresh s₁.members.size [v]) := by
    refine Runs.branch (fun hdeclared => Moves.pure ⟨?_, .keyed hown⟩) fun hforeign => ?_
    · unfold Store.IsEntry
      rw [if_pos hdeclared]
      exact hown
    · refine (Asks.view (a := fun id => .asStatic h id) (hc₁.depth hm) hown
        (run_viewId hin₁ hg₁.id prop) hin₁ (fun _ => nofun)).mono fun v s₂ ho₂ hv =>
          ⟨?_, .copy hv (Nat.le_refl _)⟩
      unfold Store.IsEntry
      rw [if_neg hforeign]
      exact ⟨hv.inside, hv.key, own, ho₂.upholds.isMember hown, hv.copied⟩
  refine Runs.bind hshown fun v s₂ ho₂ ⟨hframed₂, hentry, hfresh⟩ => ?_
  refine (runs_list hm (fun _ => [v]) (hg₁.onward ho₂ (hframed₂.holds hin₁)) hfresh hc₁.members
    (hg₁.inside hs₁)).mono
    fun _ s' ho' hg' => ⟨v, hg', ho'.upholds.isEntry hentry⟩

omit hf in
/-- **The static side of a class**: one entry for each symbol but the prototype, in order. -/
theorem runs_fillStatics (hg : s.Gathering cx c h symbol vs) {props : List (Option SymbolId)}
    (hprops : ∀ p ∈ props, cx.facts.SymbolKey p) :
    Runs cx n c s (fillStatics cx r symbol h props) (fun _ s' => ∃ ps statics,
      props.mapM present = .ok ps ∧ s'.Gathering cx c h symbol (vs ++ statics) ∧
      List.Forall₂ (s'.IsEntry cx.facts .static_ h symbol)
        (ps.filter fun p => !(cx.facts.symbol p).flags.meets SymbolFlags.prototypes) statics) := by
  induction props generalizing s vs with
  | nil => exact .pure ⟨[], [], rfl, by rwa [List.append_nil], .nil⟩
  | cons prop rest ih =>
    have hrest : ∀ p ∈ rest, cx.facts.SymbolKey p := fun p hp => hprops p (List.mem_cons_of_mem prop hp)
    unfold fillStatics
    refine Runs.ask (gives_present prop) fun p hpresent hp => Runs.branch (fun hskipped => ?_) fun hkept => ?_
    · refine (ih hg hrest).mono fun _ s' _ ⟨ps, statics, hps, hg', hentries⟩ => ?_
      refine ⟨p :: ps, statics, mapM_present_cons hpresent hps, hg', ?_⟩
      rw [List.filter_cons_of_neg (by rw [hskipped]; exact Bool.false_ne_true)]
      exact hentries
    · have hkey : cx.facts.SymbolKey (some p) := hp ▸ hprops prop List.mem_cons_self
      refine (runs_fillStatic hr hm hg hkey).bind fun _ s₁ _ ⟨v, hg₁, hentry⟩ => ?_
      refine (ih hg₁ hrest).mono fun _ s' ho' ⟨ps, statics, hps, hg', hentries⟩ => ?_
      refine ⟨p :: ps, v :: statics, mapM_present_cons hpresent hps, ?_, ?_⟩
      · rwa [List.append_assoc] at hg'
      · rw [List.filter_cons_of_pos (Bool.not_eq_true' _ ▸ Bool.eq_false_iff.2 hkept)]
        exact .cons (ho'.upholds.isEntry hentry) hentries

/-! ## 6. Classes and interfaces -/

omit hf hr hm in
/-- A class that has its common fields lists nothing so far. -/
theorem runs_listNothing (hm : c.member = some h) {declaration : Option DeclarationId} {kind : MemberKind}
    (hkind : kind.isInheriting = true)
    (hb : s.Based cx c h symbol declaration kind (cx.facts.symbol symbol).comment.docs id) :
    Runs cx n c s (modifyMember h fun x => { x with members := some [] })
      (fun _ s' => s'.Gathering cx c h symbol []) := by
  refine .sound fun _ hc => ?_
  have hin := (hc.member h hm).1
  refine (Runs.writeMember (s := s) (f := fun _ x => { x with members := some [] }) hm (fun _ hrefers =>
    hrefers.listing (.some fun x hx => absurd hx List.not_mem_nil)) (.inl (Member.standing_listing _ _))
    (fun v hv => absurd hv List.not_mem_nil) (Store.mayLink_of_overrides rfl)).mono fun _ s' ho he => ⟨⟨_, _, hkind, hb.onward ho ?_⟩, ?_, ?_⟩
  · unfold Store.SameCore
    rw [he, Store.member_setMember_self hin]
    rfl
  · rw [he, Store.member_setMember_self hin]
    rfl
  · exact List.nodup_nil

omit hf hr hm in
/-- **A class that lists both its sides** is filled. -/
theorem finished_of_sides {shown statics : List MemberHandle}
    (hg : s.Gathering cx c h symbol (shown ++ statics)) (hinstance : s.OnInstance cx h symbol shown)
    (hstatic : s.OnStatic cx h symbol statics) : s.Finished cx c h symbol := by
  obtain ⟨declaration, kind, hkind, hb⟩ := hg.based
  obtain ⟨hplain, hcontainer⟩ := MemberKind.isPlain_of_isInheriting hkind
  have hdocumented := hb.documented (Facts.declaredDocs_of_isPlain hplain symbol declaration).symm
    (MemberKind.inherits_of_isPlain hplain).symm
  have hfunction := MemberKind.isFunction_of_isPlain hplain
  rw [← hb.kind] at hcontainer hfunction
  exact ⟨{}, hdocumented, fun _ => ⟨shown, statics, hg.listed, hinstance, hstatic, hg.distinct⟩,
    fun he => absurd (he.symm.trans hcontainer) (by decide), .of_not_isFunction hfunction⟩

omit hm in
/-- **A class or interface** is filled, and lists what the facts say. -/
theorem runs_fillClass {symbol : SymbolId} (hb : c.Begun s h symbol) :
    Runs cx n c s (fillClass cx r symbol h) (fun _ s' => s'.Finished cx c h symbol) := by
  have hm := hb.own
  unfold fillClass
  refine .ask (gives_implementation _) fun decl _ _ => ?_
  refine (runs_fillSymbol hf hr hb (by split <;> rfl)).bind fun _ s₁ _ hbased => ?_
  refine .ask (gives_instanceType hf symbol _) fun declared htype hdeclared => ?_
  refine (runs_listNothing hm (by split <;> rfl) hbased).bind fun _ s₂ _ hg => ?_
  -- from the end backwards: the static side, then what is implemented, then the instance side
  have hstatics : ∀ (s' : Store) (shown : List MemberHandle), s'.Gathering cx c h symbol shown →
      s'.OnInstance cx h symbol shown → Runs cx n c s' (do
        fillStatics cx r symbol h (← orFault (cx.propertiesOf
          (some (cx.facts.typeOfSymbol symbol))))) (fun _ s' => s'.Finished cx c h symbol) := by
    intro s' shown hg hinstance
    refine Runs.ask (Context.gives_propertiesOf hf _) fun props _ ⟨hproperties, hprops⟩ => ?_
    refine (runs_fillStatics hr hm hg hprops).mono fun _ s'' ho ⟨ps, statics, hps, hg', hentries⟩ => ?_
    exact finished_of_sides hg' (ho.upholds.onInstance hinstance)
      ⟨_, Context.staticSymbols_eq hproperties hps, hentries⟩
  have hdecl : TypesIn cx.facts.typeIds ((decl.map cx.facts.declaration).getD {}).implements := by
    cases decl with
    | none => exact TypesIn.nil
    | some d => exact (hf.declaration d).implements
  have hrest : ∀ (s' : Store) (shown : List MemberHandle), s'.Gathering cx c h symbol shown →
      s'.OnInstance cx h symbol shown → Runs cx n c s' (do
        let implemented := ((decl.map cx.facts.declaration).getD {}).implements
        if implemented.isEmpty then Pure.pure ()
        else
          let types ← implemented.mapM (fun t => r.type (t.map .known))
          modifyMember h (fun c => { c with implements := some (types.map some) })
        fillStatics cx r symbol h (← orFault (cx.propertiesOf
          (some (cx.facts.typeOfSymbol symbol))))) (fun _ s' => s'.Finished cx c h symbol) := by
    intro s' shown hg hinstance
    dsimp only
    refine Runs.branch (fun _ => hstatics s' shown hg hinstance) fun _ => ?_
    refine Runs.bind (Moves.gathering (Asks.holds hm (asks_types hr hdecl)) hg)
      fun types s₃ ho₃ ⟨hg₃, htypes⟩ => ?_
    refine Runs.bind (Moves.gathering (holds_modifies hm (fun _ => ⟨rfl, rfl, rfl⟩) fun _ hc =>
      { hc with implements := .of_handles htypes }) hg₃) fun _ s₄ ho₄ ⟨hg₄, _⟩ => ?_
    exact hstatics s₄ shown hg₄ ((ho₃.trans ho₄).upholds.onInstance hinstance)
  cases declared with
  | none => exact hrest s₂ [] hg ⟨[], [], Context.instanceSymbols_none htype, .nil, .refl _⟩
  | some t =>
    exact (runs_fillInstanceSide hf hr hm htype hdeclared hg).bind fun _ s₃ _ ⟨shown, hg₃, hinstance⟩ =>
      hrest s₃ shown hg₃ hinstance

end Build

end ApiReference
