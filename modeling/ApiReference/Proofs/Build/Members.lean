/-
  The fillings of members.

  Each rule of the classification begins with the common fields and adds to them, so the record of a
  symbol is linked and documented by a run; an alias that leads elsewhere ends with the copy of its
  target.

  1. values;
  2. containers;
  3. functions with what is merged into them;
  4. `ends_fillMember`   -- the classification.
-/
import ApiReference.Proofs.Build.Classes
import ApiReference.Proofs.Build.Functions

namespace ApiReference

namespace Store

variable {s s' : Store} {cx : Context} {c : Scope} {h : MemberHandle} {symbol : SymbolId}

/-- A member of a plain kind that need list nothing is filled by its common fields. -/
theorem Based.plain {declaration : Option DeclarationId} {kind : MemberKind}
    (hb : s.Based cx c h symbol declaration kind (cx.facts.symbol symbol).comment.docs id)
    (hkind : kind.isPlain = true) (hlisting : kind.isListing = false) :
    s.Steady cx c h symbol :=
  hb.steady (Facts.declaredDocs_of_isPlain hkind symbol declaration).symm
    (MemberKind.inherits_of_isPlain hkind).symm hlisting (MemberKind.isFunction_of_isPlain hkind)

end Store

/-- What is written beside the common fields of a member of a plain kind ends its filling. -/
theorem Keeps.plain {cx : Context} {n : Nat} {c : Scope} {s : Store} {h : MemberHandle} {symbol : SymbolId}
    {α : Type} {x : Build α} {Q : α → Store → Prop} {declaration : Option DeclarationId} {kind : MemberKind}
    (hx : Keeps h cx n c s x Q)
    (hb : s.Based cx c h symbol declaration kind (cx.facts.symbol symbol).comment.docs id)
    (hkind : kind.isPlain = true) (hlisting : kind.isListing = false) :
    Runs cx n c s x (fun _ s' => s'.Finished cx c h symbol) :=
  Keeps.finished hx (hb.plain hkind hlisting) (hb.kind ▸ MemberKind.isFunction_of_isPlain hkind)

namespace Store

variable {s s' : Store}

/-- **Members sorted in one store are displayed in another** where they have the same places. -/
theorem displays_sorted {exports : List (Option SymbolId)} {entries : List MemberHandle} (sorted : Bool)
    (hentries : List.Forall₂ s'.IsMember exports entries)
    (hkey : ∀ a, (s'.member a).sortKey = (s.member a).sortKey) :
    s'.Displays sorted exports entries (if sorted then sortMembers s.toModel entries else entries) where
  registered := hentries
  perm := perm_shown s.toModel sorted entries
  order := by
    cases sorted with
    | false => rfl
    | true =>
      exact (inOrder_sortMembers s.toModel entries).mono (perm_sortMembers s.toModel entries)
        (fun _ _ => rfl) fun a _ _ => hkey a

end Store

namespace Build

variable {cx : Context} {r : Requests} {n : Nat} {c : Scope} {s : Store} {h : MemberHandle}
variable (hf : cx.facts.Closed) (hr : r.Lawful cx n) (hm : c.member = some h)
include hf hr hm

/-! ## 1. Values -/

omit hf in
theorem keeps_fillType {t : TypeRef} (ht : cx.facts.TypeKey (some t)) :
    Keeps h cx n c s (fillType r t h) (fun _ _ => True) := by
  unfold fillType
  refine Moves.bind (Asks.keeps hm (hr.asks_type ht)) fun type s' _ htype => ?_
  exact Keeps.modifies hm (fun _ => ⟨rfl, rfl, rfl⟩) fun _ hc => { hc with type := .some htype.inside }

omit hf hr in
theorem keeps_readOnly : Keeps h cx n c s (modifyMember h (·.mark .readOnly)) (fun _ _ => True) := by
  exact Keeps.marks hm (·.insert .readOnly) fun ms => Modifiers.placing_insert rfl

/-- The type of a variable; one called `module` is ignored. -/
theorem keeps_fillVariableType (symbol : SymbolId) (d : DeclarationId) :
    Keeps h cx n c s (do
      fillType r (cx.facts.typeOfSymbol symbol) h
      match (cx.facts.declaration d).kind, (cx.facts.declaration d).name with
      | .identifier, .str "module" => modifyMember h (fun c => { c with ignored := true })
      | _, _ => Pure.pure ()) (fun _ _ => True) := by
  refine Moves.bind (keeps_fillType hr hm (Facts.typeKey_typeOfSymbol hf symbol)) fun _ s₁ _ _ => ?_
  split
  · exact Keeps.modifies hm (fun _ => ⟨rfl, rfl, rfl⟩) fun _ hc => { hc with }
  · exact .pure trivial

omit hm

theorem runs_fillVariable {symbol : SymbolId} (hb : c.Begun s h symbol) (d : DeclarationId) :
    Runs cx n c s (fillVariable cx r symbol d h) (fun _ s' => s'.Finished cx c h symbol) := by
  have hm := hb.own
  unfold fillVariable
  dsimp only
  refine .branch (fun _ => runs_fillClass hf hr hb) fun _ => ?_
  refine (runs_fillSymbol hf hr hb (by split <;> rfl)).bind fun _ s₁ _ hbased => ?_
  refine .branch (fun _ => ?_) fun _ =>
    Keeps.plain (keeps_fillVariableType hf hr hm symbol d) hbased (by split <;> rfl) (by split <;> rfl)
  exact Keeps.plain (Moves.bind (keeps_readOnly hm) fun _ s₂ _ _ =>
    keeps_fillVariableType hf hr hm symbol d) hbased (by split <;> rfl) (by split <;> rfl)

/-- The initial value of a property is its own. -/
theorem runs_fillProperty {symbol : SymbolId} (hb : c.Begun s h symbol) (d : DeclarationId) :
    Runs cx n c s (fillProperty cx r symbol d h) (fun _ s' => s'.Finished cx c h symbol) := by
  have hm := hb.own
  -- an event is filled as a field is
  have hdone : ∀ (s' : Store) (kind : MemberKind), kind = .event ∨ kind = .field →
      s'.Based cx c h symbol (some d) kind { (cx.facts.symbol symbol).comment.docs with
        defaultValue := (cx.facts.declaration d).initializer.toOption <|>
          (cx.facts.symbol symbol).comment.docs.defaultValue } id → s'.Finished cx c h symbol := by
    rintro s' kind (rfl | rfl) hbased
    · exact (hbased.steady rfl (MemberKind.inherits_of_ne (by decide)).symm rfl rfl).finished
    · exact (hbased.steady rfl (MemberKind.inherits_of_ne (by decide)).symm rfl rfl).finished
  unfold fillProperty
  dsimp only
  refine (runs_fillSymbol hf hr hb (by split <;> rfl)).bind fun _ s₁ _ hbased => ?_
  refine (Keeps.based (keeps_fillType hr hm (Facts.typeKey_typeOfSymbol hf symbol)) hbased).bind
    fun _ s₂ _ hbased₂ => ?_
  generalize hkind : (if cx.settings.eventPattern (cx.facts.symbol symbol).name
    && !(cx.facts.type (cx.facts.typeOfSymbol symbol)).callSignatures.isEmpty then
      MemberKind.event else .field) = kind at hbased₂
  have hvalue : kind = .event ∨ kind = .field := by
    rw [← hkind]
    split
    · exact .inl rfl
    · exact .inr rfl
  split
  · rename_i hnull
    refine .pure (hdone s₂ kind hvalue ?_)
    rw [hnull]
    exact hbased₂
  · rename_i hset
    rw [Value.toOption_of_ne hset] at hdone
    exact (runs_declare (f := fun docs => { docs with
      defaultValue := some (cx.facts.declaration d).initializer }) (g := id) hm (fun _ => rfl) rfl
      hbased₂).mono fun _ s₃ _ hbased₃ => hdone s₃ kind hvalue hbased₃

/-- A getter, a setter, or both. -/
theorem runs_fillAccessor {symbol : SymbolId} (hb : c.Begun s h symbol) (d : DeclarationId) :
    Runs cx n c s (fillAccessor cx r symbol d h) (fun _ s' => s'.Finished cx c h symbol) := by
  have hm := hb.own
  have htype : ∀ s' : Store, Keeps h cx n c s' (fillType r (cx.facts.typeOfSymbol symbol) h)
      (fun _ _ => True) := fun s' => keeps_fillType hr hm (Facts.typeKey_typeOfSymbol hf symbol)
  unfold fillAccessor
  refine (runs_fillSymbol hf hr hb rfl).bind fun _ s₁ _ hbased => ?_
  dsimp only
  refine .branch (fun _ => Keeps.plain (htype s₁) hbased rfl rfl) fun _ => ?_
  exact Keeps.plain (Moves.bind (keeps_readOnly hm) fun _ s₂ _ _ => htype s₂) hbased rfl rfl

/-- The value of a member of an enumeration is its own, also where it has none. -/
theorem runs_fillEnumMember {symbol : SymbolId} (hb : c.Begun s h symbol) (d : DeclarationId) :
    Runs cx n c s (fillEnumMember cx r symbol d h) (fun _ s' => s'.Finished cx c h symbol) := by
  have hm := hb.own
  unfold fillEnumMember
  refine (runs_fillSymbol hf hr hb rfl).bind fun _ s₁ _ hbased => ?_
  have hdocs : ∀ inherited : Docs, { (cx.facts.symbol symbol).comment.docs.backfill inherited with
      defaultValue := (cx.facts.declaration d).constantValue.toOption } =
      Docs.backfill { (cx.facts.symbol symbol).comment.docs with
        defaultValue := (cx.facts.declaration d).constantValue.toOption }
        { inherited with defaultValue := none } := by
    intro inherited
    simp [Docs.backfill]
  refine (runs_declare (f := fun docs => { docs with
    defaultValue := (cx.facts.declaration d).constantValue.toOption })
    (g := fun docs => { docs with defaultValue := none }) hm hdocs rfl hbased).mono
    fun _ s₂ _ hbased₂ => (hbased₂.steady rfl ?_ rfl rfl).finished
  funext docs
  exact (if_pos rfl).symm

/-! ## 2. Containers -/

theorem keeps_fillDeclaredType (hm : c.member = some h) (symbol : SymbolId) :
    Keeps h cx n c s (fillDeclaredType cx r symbol h) (fun _ _ => True) := by
  unfold fillDeclaredType
  split
  · exact .pure trivial
  · rename_i t ht
    have hkey := Facts.typeKey_known ((hf.symbol symbol).declaredType t ht)
    refine Moves.bind (Asks.keeps hm (hr.asks_type hkey)) fun type s' _ htype => ?_
    exact Keeps.modifies hm (fun _ => ⟨rfl, rfl, rfl⟩) fun _ hc => { hc with declaredType := .some htype.inside }

/-- **The exports of a symbol** become the members of its record, sorted or not. -/
theorem keeps_fillExports (hm : c.member = some h) (symbol : SymbolId) (sorted : Bool) :
    Keeps h cx n c s (fillExports cx r symbol sorted h) (fun _ s' => ∃ entries shown,
      (s'.member h).members = some (shown.map some) ∧
        s'.Displays sorted (cx.facts.symbol symbol).exports entries shown) := by
  unfold fillExports
  refine Moves.bind (Asks.keeps hm (asks_members hr (hf.symbol symbol).exports))
    fun members s₁ _ hmembers => .sound fun _ hc => ?_
  have hin := (hc.member h hm).1
  have hentries := hmembers.registered
  -- sorted or not, the members are those that were asked for
  have hshown : ∀ x ∈ (if sorted then sortMembers s₁.toModel members else members),
      ∃ k, s₁.IsMember k x := fun x hx =>
    forall₂_right (P := fun x => ∃ k, s₁.IsMember k x) (fun k _ hk => ⟨k, hk⟩) hentries x
      ((perm_shown _ _ _).mem_iff.1 hx)
  refine Moves.mono (Keeps.writes (s := s₁) (f := fun s m => { m with
    members := some ((if sorted then sortMembers s.toModel members else members).map some) }) hm
    (fun _ hrefers => hrefers.listing (.of_handles fun x hx => ?_)) (fun x hx => .inr (.inl ?_)) (fun _ => rfl)
    (Member.standing_listing · _)) fun _ s₂ ho he => ⟨members, if sorted then sortMembers s₁.toModel members else members, ?_, ?_⟩
  · obtain ⟨k, hk⟩ := hshown x hx
    exact hk.inside
  · obtain ⟨y, hy, he⟩ := List.mem_map.1 hx
    cases he
    obtain ⟨k, hk⟩ := hshown x hy
    rw [Registry.keyAt_of_find? hk]
    exact fun e => nomatch e
  · rw [he, Store.member_setMember_self hin]
  · refine Store.displays_sorted sorted (hentries.imp fun _ _ => ho.upholds.isMember) fun a => ?_
    rw [he]
    -- what a record lists is no part of what sorts it
    by_cases ha : a = h
    · subst ha
      rw [Store.member_setMember_self hin]
      exact Member.sortKey_eq_of_standing (Member.standing_listing _ _)
    · rw [Store.member_setMember_ne ha]

/-- **A container is filled** with its exports. -/
theorem runs_fillContainer (hm : c.member = some h) {symbol : SymbolId}
    {declaration : Option DeclarationId} {kind : MemberKind}
    (hb : s.Based cx c h symbol declaration kind (cx.facts.symbol symbol).comment.docs id)
    (hkind : kind.isContainer = true) :
    Runs cx n c s (fillExports cx r symbol cx.settings.sort h)
      (fun _ s' => s'.Finished cx c h symbol) := by
  obtain ⟨hplain, -⟩ := MemberKind.isPlain_of_isContainer hkind
  refine Runs.mono (keeps_fillExports hf hr hm symbol cx.settings.sort)
    fun _ s' ho ⟨hsame, entries, shown, hmembers, hdisplays⟩ => ?_
  exact (hb.onward ho hsame).displaying (Facts.declaredDocs_of_isPlain hplain symbol declaration).symm
    (MemberKind.inherits_of_isPlain hplain).symm hkind hmembers hdisplays

theorem runs_fillEnum {symbol : SymbolId} (hb : c.Begun s h symbol) :
    Runs cx n c s (fillEnum cx r symbol h) (fun _ s' => s'.Finished cx c h symbol) := by
  have hm := hb.own
  have htail : ∀ s' : Store, Keeps h cx n c s' (do
      fillDeclaredType cx r symbol h
      fillExports cx r symbol false h) (fun _ _ => True) := fun s' =>
    Moves.bind (keeps_fillDeclaredType hf hr hm symbol) fun _ s₁ _ _ =>
      Moves.mono (keeps_fillExports hf hr hm symbol false) fun _ _ _ _ => trivial
  unfold fillEnum
  refine .ask (gives_firstDeclaration _ _) fun d _ _ => ?_
  refine (runs_fillSymbol hf hr hb rfl).bind fun _ s₁ _ hbased => ?_
  dsimp only
  refine .branch (fun _ => ?_) fun _ => Keeps.plain (htail s₁) hbased rfl rfl
  exact Keeps.plain (Moves.bind (keeps_readOnly hm) fun _ s₂ _ _ => htail s₂) hbased rfl rfl

theorem runs_fillTypeAlias {symbol : SymbolId} (hb : c.Begun s h symbol) :
    Runs cx n c s (fillTypeAlias cx r symbol h) (fun _ s' => s'.Finished cx c h symbol) := by
  unfold fillTypeAlias
  refine .ask (gives_firstDeclaration _ _) fun d _ _ => ?_
  refine (runs_fillSymbol hf hr hb rfl).bind fun _ s₁ _ hbased => ?_
  exact Keeps.plain (keeps_fillDeclaredType hf hr hb.own symbol) hbased rfl rfl

theorem runs_fillNamespace {symbol : SymbolId} (hb : c.Begun s h symbol) :
    Runs cx n c s (fillNamespace cx r symbol h) (fun _ s' => s'.Finished cx c h symbol) := by
  unfold fillNamespace
  refine .ask (gives_declarationsWith _ _) fun ds _ _ => ?_
  exact (runs_fillSymbol hf hr hb rfl).bind fun _ s₁ _ hbased =>
    runs_fillContainer hf hr hb.own hbased rfl

theorem runs_fillModule {symbol : SymbolId} (hb : c.Begun s h symbol) :
    Runs cx n c s (fillModule cx r symbol h) (fun _ s' => s'.Finished cx c h symbol) := by
  have hm := hb.own
  unfold fillModule
  refine (runs_fillSymbol hf hr hb rfl).bind fun _ s₁ _ hbased => ?_
  exact Runs.bind (Keeps.based (Keeps.modifies hm (fun _ => ⟨rfl, rfl, rfl⟩) fun _ hc => { hc with }) hbased) fun _ s₂ _ hnamed =>
    runs_fillContainer hf hr hm hnamed rfl

/-! ## 3. Functions -/

omit hf hr in
/-- **What is merged into a function** has a record of its own, which is complete before the function
    goes on. -/
theorem runs_merge (set : MemberHandle → Member → Member) {symbol : SymbolId}
    (hm : c.member = some h) (hd : s.Steady cx c h symbol) {fill : MemberHandle → Build PUnit}
    (hset : ∀ o m (mo : Model), m.Refers mo → mo.HasMember o → (set o m).Refers mo)
    (hcore : ∀ o m, (set o m).core = m.core)
    (hstanding : ∀ o m, (set o m).standing = m.standing)
    (hmembers : ∀ o m, (set o m).members = m.members)
    (hsignature : ∀ o m, (set o m).signature = m.signature)
    (hfill : ∀ (c : Scope) (s : Store) (o : MemberHandle), c.Begun s o symbol →
      Runs cx n c s (fill o) fun _ s' => s'.Finished cx c o symbol) :
    Runs cx n c s (do
      let merged ← newMember
      modifyMember h (set merged)
      fill merged
      complete (.member merged)) (fun _ s' => s'.Steady cx c h symbol) := by
  refine .sound fun _ hc => ?_
  have hin := (hc.member h hm).1
  refine Runs.bind (Asks.newMember) fun o s₁ ho₁ ⟨hframed, hnew, hsize⟩ => .sound fun _ hc₁ => ?_
  have hne : o ≠ h := by
    rintro rfl
    exact absurd hin (Nat.not_lt.2 hsize)
  have hd₁ := hd.kept ho₁ (hframed.member h hin)
  have hoverrides : ∀ m, (set o m).overrides = m.overrides := fun m =>
    (Member.fields_of_core (hcore o m)).overrides
  refine Runs.bind (Runs.modifyMember hm (hstanding o) (hmembers o) hoverrides
    fun m hrefers => hset o m _ hrefers hnew.loose.1) fun _ s₂ ho₂ he₂ => .sound fun _ hc₂ => ?_
  have hnew₂ : c.NewMember s₂ o := by
    rw [he₂]
    exact hnew.setMember hne
  have hown₂ : s₂.member h = set o (s₁.member h) := by
    rw [he₂, Store.member_setMember_self (hc₁.member h hm).1]
  have hsame₂ : s₁.SameCore h s₂ := by
    unfold Store.SameCore
    rw [hown₂]
    exact hcore o _
  have hkept₂ : s₁.SameSignature h s₂ := by
    refine .of_core hsame₂ ?_
    rw [hown₂]
    exact hsignature o _
  -- the merged record is filled in a scope of its own, beside the function
  refine (Runs.withinMember (hc₂.depth hm) hnew₂.loose (hfill _ s₂ o (hnew₂.begun symbol))).bind
    fun _ s₃ ho₃ ⟨⟨hbesides, hloose⟩, hmerged⟩ => ?_
  have hd₃ := (hd₁.onward ho₂ hsame₂ fun _ => hkept₂).kept ho₃ (hbesides.member h (hc₂.member h hm).1 hne.symm)
  refine (Runs.complete hloose hmerged.done).mono fun _ s₄ ho₄ he₄ => hd₃.kept ho₄ ?_
  rw [he₄]
  rfl

/-- A function; what is merged into it has records of its own. -/
theorem runs_fillFunction {symbol : SymbolId} (hb : c.Begun s h symbol)
    (hvalue : cx.facts.valueDeclaration symbol ≠ none) :
    Runs cx n c s (fillFunction cx r symbol h) (fun _ s' => s'.Finished cx c h symbol) := by
  have hm := hb.own
  have hspace : ∀ s' : Store, s'.Steady cx c h symbol → Runs cx n c s' (do
      if (cx.facts.symbol symbol).flags.meets SymbolFlags.namespaceModules then
        let merged ← newMember
        modifyMember h (fun c => { c with namespace_ := some merged })
        fillNamespace cx r symbol merged
        complete (.member merged)) (fun _ s' => s'.Finished cx c h symbol) := by
    intro s' hd
    refine .branch (fun _ => ?_) fun _ => .pure hd.finished
    refine (runs_merge (fun o m => { m with namespace_ := some o }) hm hd
      (fun _ _ _ hc ho => { hc with namespace_ := .some ho }) (fun _ _ => rfl) (fun _ _ => rfl)
      (fun _ _ => rfl) (fun _ _ => rfl) fun c s o hb => runs_fillNamespace hf hr hb).mono ?_
    exact fun _ _ _ hd' => hd'.finished
  unfold fillFunction
  refine .ask (gives_declarationsWith _ _) fun ds _ _ => ?_
  refine (runs_consolidate hf hr hb hvalue ds).bind fun _ s₁ _ hd => ?_
  dsimp only
  refine .branch (fun _ => ?_) fun _ => hspace s₁ hd
  have hclass : Runs cx n c s₁ (do
      let merged ← newMember
      modifyMember h (fun c => { c with classOrInterface := some merged })
      fillClass cx r symbol merged
      complete (.member merged)) (fun _ s' => s'.Steady cx c h symbol) :=
    runs_merge (fun o m => { m with classOrInterface := some o }) hm hd
      (fun _ _ _ hc ho => { hc with classOrInterface := .some ho }) (fun _ _ => rfl) (fun _ _ => rfl)
      (fun _ _ => rfl) (fun _ _ => rfl) fun c s o hb => runs_fillClass hf hr hb
  have hboth := hclass.bind fun _ s₂ _ hd₂ => hspace s₂ hd₂
  simpa only [bind_assoc] using hboth

/-! ## 4. Classification -/

omit hf hr in
/-- A registered member is about to be filled. -/
theorem begun_register (s : Store) (symbol : SymbolId) :
    (Scope.ofKey s (.member (some symbol))).Begun (s.enter.register (.member (some symbol)))
      ⟨s.members.size⟩ symbol where
  own := rfl
  blank := (Registry.recordAt_push ..).trans (if_pos rfl)
  last := (Registry.size_push ..).symm
  key := by
    intro k hk
    have hkey : (s.enter.register (.member (some symbol))).members.keyAt s.members.size =
      some (some symbol) := (Registry.keyAt_push ..).trans (if_pos rfl)
    rw [hkey] at hk
    exact (Option.some.inj hk).symm

/-- **How the filling of a member ends**: as it is or with the copy of its target, and filled. -/
def EndsFilled (cx : Context) (s : Store) (key : Key) (s₁ s' : Store) : Prop :=
  Finish cx s key s₁ s' ∧ s'.Done cx s'.members.size s'.filled (key.next s)

omit hf hr in
theorem ends_of_finished {symbol : SymbolId} {x : Build PUnit}
    (hx : Runs cx n (Scope.ofKey s (.member (some symbol)))
      (s.enter.register (.member (some symbol))) x fun _ s' =>
        s'.Finished cx (Scope.ofKey s (.member (some symbol))) ⟨s.members.size⟩ symbol) :
    Ends cx n (Scope.ofKey s (.member (some symbol))) (s.enter.register (.member (some symbol)))
      (EndsFilled cx s (.member (some symbol))) x :=
  .of_runs (fun _ s' hd => ⟨.asIs _ s', hd.done⟩) hx

/-- An alias that leads elsewhere ends with the copy of its target. -/
theorem ends_fillAlias (hs : s.Sound) {symbol : SymbolId}
    (hsymbol : cx.facts.SymbolKey (some symbol)) (d : DeclarationId) :
    Ends cx n (Scope.ofKey s (.member (some symbol))) (s.enter.register (.member (some symbol)))
      (EndsFilled cx s (.member (some symbol))) (fillAlias cx r symbol d ⟨s.members.size⟩) := by
  have hb := begun_register s symbol
  unfold fillAlias
  dsimp only
  refine .branch (fun _ => ends_of_finished ?_) fun _ => .branch (fun _ => ends_of_finished ?_)
    fun hne => ?_
  · refine (runs_fillSymbol hf hr hb rfl).bind fun _ s₁ _ hbased => ?_
    exact Keeps.plain (keeps_fillType hr hb.own (Facts.typeKey_typeOfSymbol hf symbol)) hbased rfl rfl
  · exact (runs_fillSymbol hf hr hb rfl).mono fun _ s₁ _ hbased => (hbased.plain rfl rfl).finished
  · have hkey := Facts.symbolKey_some (Facts.aliasedSymbol_declared hf (hsymbol symbol rfl))
    refine .last (hr.member _ _ _ hkey) fun _ hc source s' hsource hd => ?_
    have hpos : s'.depth ≠ 0 := by
      rw [hd]
      exact Nat.ne_of_gt (hc.depth rfl)
    show EndsFilled cx s _ s' (ite (s'.depth = 0) _ _)
    rw [if_neg hpos]
    refine ⟨.aliased symbol source s' hne hsource.1 ?_, fun horiginal => ?_⟩
    · rcases hsource.2 with rfl | hnew
      · -- the target had a record, so nothing was done since the alias was registered
        refine .inl fun p hp => Nat.ne_of_lt ?_
        exact (hs.copies p (hs.pending p hp)).1
      · refine .inr (Nat.lt_of_lt_of_le (Nat.lt_succ_self _) ?_)
        exact Nat.le_trans (Nat.le_of_eq (Registry.size_push ..).symm) hnew
    · exact absurd rfl (horiginal _ (List.mem_append_right _ List.mem_cons_self))

/-- **The record of a symbol is filled by a run**, with the end of an alias. -/
theorem ends_fillMember (hs : s.Sound) {key : Option SymbolId} (hkey : cx.facts.SymbolKey key) :
    Ends cx n (Scope.ofKey s (.member key)) (s.enter.register (.member key))
      (EndsFilled cx s (.member key)) (fillMember cx r key ⟨s.members.size⟩) := by
  unfold fillMember
  refine .ask (gives_present key) fun symbol hsymbol => ?_
  subst hsymbol
  have hb := begun_register s symbol
  dsimp only
  cases hvalue : cx.facts.valueDeclaration symbol with
  | none =>
    refine ends_of_finished ((runs_fillSymbol hf hr hb rfl).bind fun _ s₁ _ hbased => ?_)
    refine Keeps.finished (keeps_fillType hr hb.own (Facts.typeKey_typeOfSymbol hf symbol)) ?_ ?_
    · exact hbased.steady rfl (MemberKind.inherits_of_ne (by decide)).symm rfl rfl
    · rw [hbased.kind]
      rfl
  | some d =>
    have hsome : cx.facts.valueDeclaration symbol ≠ none := by
      rw [hvalue]
      exact fun he => nomatch he
    -- one branch for each kind of declaration, in the order in which they are tried
    refine .branch (fun _ => ends_of_finished (runs_fillFunction hf hr hb hsome)) fun _ => ?_
    refine .branch (fun _ => ends_of_finished (runs_fillVariable hf hr hb d)) fun _ => ?_
    refine .branch (fun _ => ends_of_finished (runs_fillClass hf hr hb)) fun _ => ?_
    refine .branch (fun _ => ends_of_finished (runs_fillProperty hf hr hb d)) fun _ => ?_
    refine .branch (fun _ => ends_of_finished (runs_fillAccessor hf hr hb d)) fun _ => ?_
    refine .branch (fun _ => ends_of_finished (runs_fillEnumMember hf hr hb d)) fun _ => ?_
    refine .branch (fun _ => ends_of_finished (runs_fillEnum hf hr hb)) fun _ => ?_
    refine .branch (fun _ => ends_of_finished (runs_fillTypeAlias hf hr hb)) fun _ => ?_
    refine .branch (fun _ => ends_of_finished (runs_fillNamespace hf hr hb)) fun _ => ?_
    refine .branch (fun _ => ends_fillAlias hf hr hs hkey d) fun _ => ?_
    refine .branch (fun _ => ends_of_finished (runs_fillModule hf hr hb)) fun _ => ?_
    exact ends_of_finished ((runs_fillSymbol hf hr hb rfl).mono fun _ s₁ _ hbased =>
      (hbased.plain rfl rfl).finished)

end Build

end ApiReference
