/-
  The fillings of type records.

  Each rule is a run in the scope of the type record it fills, and leaves the record of its type there:
  one that shows the shape of the type, or what the record taken over shows.

  1. `Store.Made`         -- a record of a type, by its source or its shape;
  2. `runs_part`          -- a part that is asked for and written;
  3. references and signatures;
  4. object types;
  5. all types;
  6. aliases, and `runs_fillTypeExpr`.
-/
import ApiReference.Proofs.Build.Parts

namespace ApiReference

/-! ## 1. Records of types -/

/-- A record that shows a shape. -/
def Store.Showing (s : Store) (f : Facts) (h : TypeHandle) (t : TypeRef) (shape : TypeShape) : Prop :=
  s.Shows f t shape (s.type h)

theorem Store.Showing.of_eq {s : Store} {f : Facts} {h : TypeHandle} {t : TypeRef} {shape : TypeShape}
    {e : TypeExpr} (he : s.type h = e) (hs : s.Shows f t shape e) : s.Showing f h t shape := by
  subst he
  exact hs

/-- **A record of a type** that takes over the record of its source, or else has a shape of its own. -/
def Store.Made (s : Store) (f : Facts) (h : TypeHandle) (t : TypeRef) (source : Option TypeRef)
    (shape : Except Fault TypeShape) : Prop :=
  (s.type h).raw = some t ∧ match source with
    | none => ∃ sh, shape = .ok sh ∧ s.Showing f h t sh
    | some u => ∃ x, s.IsType (some u) x ∧ s.Agrees h x

theorem Store.Made.of_showing {s : Store} {f : Facts} {h : TypeHandle} {t : TypeRef} {sh : TypeShape}
    {source : Option TypeRef} {shape : Except Fault TypeShape} (hshows : s.Showing f h t sh)
    (hsource : source = none) (hshape : shape = .ok sh) : s.Made f h t source shape := by
  subst hsource hshape
  exact ⟨hshows.raw, sh, rfl, hshows⟩

namespace Build

variable {cx : Context} {r : Requests} {n : Nat} {c : Scope} {s : Store} {h : TypeHandle} {t : TypeRef}

/-! ## 2. Parts -/

section Parts

variable {α β : Type} {x : Build α} {rest : Build β} {P : α → Store → Prop} {Q : β → Store → Prop}
variable {e : TypeExpr} {f : α → TypeExpr → TypeExpr}

/-- **A part is asked for and written**, before the rest is done.  What is known of it lasts. -/
theorem runs_partThen (ht : c.type = some h) (he : s.type h = e) (hx : Asks cx n c s x P)
    (hlasts : ∀ {a s₁ s₂}, c.Onward s₁ s₂ → P a s₁ → P a s₂) (hknows : ∀ a, (f a e).Knows = e.Knows)
    (hf : ∀ {a s'}, P a s' → e.Refers s'.toModel → (f a e).Refers s'.toModel)
    (hrest : ∀ a s', c.Onward s s' → P a s' → s'.type h = f a e → Runs cx n c s' rest Q) :
    Runs cx n c s (do let a ← x; modifyType h (f a); rest) Q := by
  refine (Asks.beside hx ht he).bind fun a s₁ ho₁ ⟨he₁, ha⟩ => ?_
  refine (Runs.becomes ht he₁ (hknows a) (hf ha)).bind fun _ s₂ ho₂ he₂ => ?_
  exact hrest a s₂ (ho₁.trans ho₂) (hlasts ho₂ ha) he₂

/-- The last part. -/
theorem runs_part {R : PUnit → Store → Prop} (ht : c.type = some h) (he : s.type h = e)
    (hx : Asks cx n c s x P) (hlasts : ∀ {a s₁ s₂}, c.Onward s₁ s₂ → P a s₁ → P a s₂)
    (hknows : ∀ a, (f a e).Knows = e.Knows)
    (hf : ∀ {a s'}, P a s' → e.Refers s'.toModel → (f a e).Refers s'.toModel)
    (hlast : ∀ a s', c.Onward s s' → P a s' → s'.type h = f a e → R ⟨⟩ s') :
    Runs cx n c s (do let a ← x; modifyType h (f a)) R := by
  refine (Asks.beside hx ht he).bind fun a s₁ ho₁ ⟨he₁, ha⟩ => ?_
  refine (Runs.becomes ht he₁ (hknows a) (hf ha)).mono fun _ s₂ ho₂ he₂ => ?_
  exact hlast a s₂ (ho₁.trans ho₂) (hlasts ho₂ ha) he₂

end Parts

variable (hf : cx.facts.Closed) (hr : r.Lawful cx n) (ht : c.type = some h)
variable (he : s.type h = { raw := some t })
include hf hr ht he

/-! ## 3. References and signatures -/

theorem runs_fillReference (kind : TypeKind) :
    Runs cx n c s (fillReference r (cx.facts.type t) kind h)
      (fun _ s' => s'.Showing cx.facts h t (.reference (cx.facts.type t) kind)) := by
  unfold fillReference
  refine Runs.bind (Runs.becomes ht he rfl fun hc => { hc with }) fun _ s₁ _ he₁ => ?_
  refine runs_part ht he₁ (asks_memberOf hf hr t) (fun ho => rel_imp fun _ _ => ho.upholds.isMember)
    (fun _ => rfl) (fun hmember hc => { hc with member := Store.memberIn_of_rel hmember })
    fun member s₂ _ hmember he₂ => ?_
  exact .of_eq he₂ { Store.Shows.blank _ _ _ _ with member := hmember }

omit he in
theorem runs_fillTypeSignature {kind : TypeKind} (he : s.type h = { kind, raw := some t })
    (signature : Option SignatureId) :
    Runs cx n c s (fillTypeSignature cx r signature h) (fun _ s' =>
      ∃ shape, cx.signatureShape kind signature = .ok shape ∧ s'.Showing cx.facts h t shape) := by
  unfold fillTypeSignature
  refine Runs.bind (Runs.becomes ht he rfl fun hc => { hc with }) fun _ s₁ _ he₁ => ?_
  refine .ask (gives_present signature) fun sig hsig _ => ?_
  refine runs_partThen ht he₁ (asks_typeParameters hf hr _)
    (fun ho => rel_imp fun _ _ hall => hall.imp fun _ _ => ho.upholds.isTypeParameter) (fun _ => rfl)
    (fun hgenerics hc => { hc with typeParameters := Store.genericsIn_of_rel hgenerics })
    fun generics s₂ _ hgenerics he₂ => ?_
  refine runs_partThen ht he₂ (asks_parameters hf hr _)
    (fun ho => List.Forall₂.imp fun _ _ => ho.upholds.isParameter) (fun _ => rfl)
    (fun hps hc => { hc with parameters := Store.parametersIn_of_forall₂ hps })
    fun ps s₃ ho₃ hps he₃ => ?_
  have hkey := Facts.typeKey_orError (hf.signature sig).returnType
  refine runs_part ht he₃ (hr.asks_type hkey) (fun ho => ho.upholds.isType) (fun _ => rfl)
    (fun hresult hc => { hc with returnType := .some hresult.inside }) fun result s₄ ho hresult he₄ => ?_
  have hshape : cx.signatureShape kind signature = .ok {
      kind, signature
      typeParameters := if (cx.facts.signature sig).typeParameters.isEmpty then none
        else some (cx.facts.signature sig).typeParameters
      parameters := some (cx.facts.signature sig).parameters
      returnType := some (some (.orError (cx.facts.signature sig).returnType)) } := by
    unfold Context.signatureShape
    rw [hsig]
    rfl
  refine ⟨_, hshape, ?_⟩
  refine .of_eq he₄ { Store.Shows.blank s₄ cx.facts t kind with
    signature := rfl, typeParameters := ?_, parameters := .some ?_, returnType := .some hresult }
  · refine rel_imp (fun _ _ hall => ?_) hgenerics
    exact hall.imp fun _ _ => (ho₃.trans ho).upholds.isTypeParameter
  · exact hps.imp fun _ _ => ho.upholds.isParameter

/-! ## 4. Object types -/

omit hr ht he in
theorem gives_ownConstructor (t : TypeRef) :
    Gives (¬ cx.WalksFit) cx.facts.SymbolKey (ownConstructor cx t) := by
  unfold ownConstructor
  refine (Facts.gives_ownMember hf (some t) _).bind fun o ho => ?_
  cases o with
  | some s => exact Gives.pure ho
  | none => exact Facts.gives_ownMember hf (some t) _

/-- An anonymous object: constructor, call, properties, index. -/
theorem runs_fillAnonymous {properties : List (Option SymbolId)}
    (hprops : ∀ p ∈ properties, cx.facts.SymbolKey p) :
    Runs cx n c s (fillAnonymous cx r t properties h) (fun _ s' => ∃ members,
      cx.objectMembers t properties = .ok members ∧
      s'.Showing cx.facts h t { kind := .anonymousObject, members := some members }) := by
  unfold fillAnonymous
  refine Runs.bind (Runs.becomes ht he rfl fun hc => { hc with }) fun _ s₁ _ he₁ => ?_
  refine (Asks.beside (asks_members hr hprops) ht he₁).bind fun members s₂ _ ⟨he₂, hmembers⟩ => ?_
  refine .ask (Facts.gives_ownMember hf _ _) fun index hindexOf hindex => ?_
  refine (Asks.beside (asks_foundMember hr hindex) ht he₂).bind
    fun indexes s₃ ho₃ ⟨he₃, hindexes⟩ => ?_
  refine .ask (Facts.gives_ownMember hf _ _) fun call hcallOf hcall => ?_
  refine (Asks.beside (asks_foundMember hr hcall) ht he₃).bind fun calls s₄ ho₄ ⟨he₄, hcalls⟩ => ?_
  refine .ask (gives_ownConstructor hf t) fun constructor hconstructorOf hconstructor => ?_
  refine (Asks.beside (asks_foundMember hr hconstructor) ht he₄).bind
    fun constructors s₅ ho₅ ⟨he₅, hconstructors⟩ => ?_
  have hall : s₅.IsMembers ((constructor.toList ++ call.toList).map some ++ properties ++
      index.toList.map some) ((constructors ++ calls ++ members ++ indexes).map some) := by
    rw [List.map_append, List.map_append, List.map_append, List.map_append]
    refine Store.IsMembers.append (Store.IsMembers.append (Store.IsMembers.append hconstructors ?_) ?_) ?_
    · exact ho₅.upholds.isMembers hcalls
    · exact ho₅.upholds.isMembers (ho₄.upholds.isMembers (ho₃.upholds.isMembers hmembers))
    · exact ho₅.upholds.isMembers (ho₄.upholds.isMembers hindexes)
  refine Runs.mono (Runs.becomes ht he₅ rfl fun hc => { hc with members := hall.membersIn })
    fun _ s₆ ho₆ he₆ => ?_
  have hshape : cx.objectMembers t properties = .ok ((constructor.toList ++ call.toList).map some ++
      properties ++ index.toList.map some) := by
    unfold Context.objectMembers
    rw [hindexOf, hcallOf, hconstructorOf]
    rfl
  refine ⟨_, hshape, ?_⟩
  exact .of_eq he₆ { Store.Shows.blank _ _ _ _ with members := .some (ho₆.upholds.isMembers hall) }

omit hr ht he in
/-- The symbol that a type query names is that of the type. -/
theorem typeQuery_declared {symbol : SymbolId} (hq : typeQuery? cx (cx.facts.type t) = some symbol) :
    cx.facts.SymbolKey (some symbol) := by
  unfold typeQuery? at hq
  dsimp only at hq
  split at hq
  · exact nomatch hq
  · rename_i u hu
    split at hq
    · exact nomatch hq
    · split at hq
      · cases hq
        exact Facts.symbolKey_some ((hf.type t).symbol _ hu)
      · exact nomatch hq

omit hr ht he in
theorem typeKey_elementType : cx.facts.TypeKey (Facts.elementType (cx.facts.type t)) := by
  unfold Facts.elementType
  split
  · exact fun t ht => nomatch ht
  · rename_i e es he
    exact Facts.typeKey_map ((hf.type t).typeArguments e (he ▸ List.mem_cons_self))

theorem runs_fillGeneric :
    Runs cx n c s (fillGeneric cx r (cx.facts.type t) h)
      (fun _ s' => s'.Showing cx.facts h t (cx.genericShape (cx.facts.type t))) := by
  have hfacts := hf.type t
  unfold fillGeneric Context.genericShape
  dsimp only
  split
  · refine Runs.bind (Runs.becomes ht he rfl fun hc => { hc with }) fun _ s₁ _ he₁ => ?_
    refine runs_part ht he₁ (hr.asks_type (typeKey_elementType hf)) (fun ho => ho.upholds.isType)
      (fun _ => rfl) (fun helement hc => { hc with element := .some helement.inside })
      fun element s₂ _ helement he₂ => ?_
    exact .of_eq he₂ { Store.Shows.blank _ _ _ _ with element := .some helement }
  · split
    · refine Runs.bind (Runs.becomes ht he rfl fun hc => { hc with }) fun _ s₁ _ he₁ => ?_
      refine runs_part ht he₁ (asks_typeList hr hfacts.typeArguments) (fun ho => ho.upholds.isTypes)
        (fun _ => rfl) (fun helements hc => { hc with elements := .some helements.typesIn })
        fun elements s₂ _ helements he₂ => ?_
      exact .of_eq he₂ { Store.Shows.blank _ _ _ _ with elements := .some helements }
    · refine Runs.bind (Runs.becomes ht he rfl fun hc => { hc with }) fun _ s₁ _ he₁ => ?_
      refine runs_partThen ht he₁ (asks_typeOrError hr hfacts.target) (fun ho => ho.upholds.isPart)
        (fun _ => rfl) (fun htarget hc => { hc with target := .some htarget.inside })
        fun target s₂ _ htarget he₂ => ?_
      refine runs_part ht he₂ (asks_typeList hr hfacts.typeArguments) (fun ho => ho.upholds.isTypes)
        (fun _ => rfl) (fun harguments hc => { hc with typeArguments := .some harguments.typesIn })
        fun arguments s₃ ho harguments he₃ => ?_
      exact .of_eq he₃ { Store.Shows.blank _ _ _ _ with
        target := .some (ho.upholds.isPart htarget), typeArguments := .some harguments }

/-- An anonymous type: a query of its symbol, a bare signature, or an object. -/
theorem runs_fillUnnamed :
    Runs cx n c s (fillUnnamed cx r t (cx.facts.type t) h) (fun _ s' =>
      ∃ shape, cx.unnamedShape t (cx.facts.type t) = .ok shape ∧ s'.Showing cx.facts h t shape) := by
  unfold fillUnnamed Context.unnamedShape
  cases hq : typeQuery? cx (cx.facts.type t) with
  | some symbol =>
    refine Runs.bind (Runs.becomes ht he rfl fun hc => { hc with }) fun _ s₁ _ he₁ => ?_
    refine runs_part ht he₁ (hr.asks_member (typeQuery_declared hf hq)) (fun ho => ho.upholds.isMember)
      (fun _ => rfl) (fun hmember hc => { hc with member := .some hmember.inside })
      fun member s₂ _ hmember he₂ => ⟨_, rfl, ?_⟩
    exact .of_eq he₂ { Store.Shows.blank _ _ _ _ with member := .some hmember }
  | none =>
    refine .ask (Context.gives_propertiesOf hf _) fun properties _ ⟨hpropertiesOf, hproperties⟩ => ?_
    dsimp only
    rw [hpropertiesOf]
    show Runs cx n c s _ fun _ s' => ∃ shape,
      cx.structureShape t (cx.facts.type t) properties = .ok shape ∧ _
    split
    · rename_i hbare hcall hconstruct
      unfold Context.structureShape
      dsimp only
      rw [hbare, hcall, hconstruct]
      refine Runs.bind (Runs.becomes ht he rfl fun hc => { hc with }) fun _ s₁ _ he₁ => ?_
      exact runs_fillTypeSignature hf hr ht he₁ _
    · rename_i hbare hcall hconstruct
      unfold Context.structureShape
      dsimp only
      rw [hbare, hcall, hconstruct]
      refine Runs.bind (Runs.becomes ht he rfl fun hc => { hc with }) fun _ s₁ _ he₁ => ?_
      refine (runs_fillTypeSignature hf hr ht he₁ _).bind fun _ s₂ _ ⟨shape, hshape, hshows⟩ => ?_
      have hnone : s₂.GenericsIn none := fun _ h => nomatch h
      refine Runs.mono (Runs.becomes (e := s₂.type h) ht rfl rfl fun hc => { hc with typeParameters := hnone })
        fun _ s₃ ho he₃ => ⟨{ shape with typeParameters := none }, ?_, ?_⟩
      · dsimp only
        rw [hshape]
        rfl
      · unfold Store.Showing
        rw [he₃]
        exact { ho.upholds.shows hshows with typeParameters := .none }
    · rename_i hfunction hconstructor
      refine (runs_fillAnonymous hf hr ht he hproperties).mono
        fun _ s' _ ⟨members, hmembers, hshows⟩ => ⟨_, ?_, hshows⟩
      unfold Context.structureShape
      dsimp only
      split
      · exact (hfunction _ ‹_› ‹_› ‹_›).elim
      · exact (hconstructor _ ‹_› ‹_› ‹_›).elim
      · rw [hmembers]
        rfl

/-- An object type, if a rule for object types fits. -/
theorem runs_fillObject :
    Runs cx n c s (fillObject cx r t (cx.facts.type t) h) (fun b s' =>
      match cx.objectShape? t (cx.facts.type t) with
      | none => b = false ∧ s'.type h = { raw := some t }
      | some shape => b = true ∧ ∃ sh, shape = .ok sh ∧ s'.Showing cx.facts h t sh) := by
  unfold fillObject Context.objectShape?
  dsimp only
  split
  · refine (runs_fillReference hf hr ht he _).bind fun _ _ _ hshows => .pure ?_
    exact ⟨rfl, _, rfl, hshows⟩
  · split
    · refine (runs_fillGeneric hf hr ht he).bind fun _ _ _ hshows => .pure ?_
      exact ⟨rfl, _, rfl, hshows⟩
    · split
      · exact (runs_fillUnnamed hf hr ht he).bind fun _ _ _ hshows => .pure ⟨rfl, hshows⟩
      · exact .pure ⟨rfl, he⟩

/-! ## 5. All types -/

omit hf in
/-- What another record holds exists, so it may be taken over; the two then agree. -/
theorem runs_fillFrom {source : TypeRef} (hkey : cx.facts.TypeKey (some source))
    (shape : Except Fault TypeShape) :
    Runs cx n c s (fillFrom r source h) (fun _ s' => s'.Made cx.facts h t (some source) shape) := by
  unfold fillFrom
  refine (Asks.beside (hr.asks_type hkey) ht he).bind fun x s₁ _ ⟨he₁, hx⟩ => .readType ?_
  refine .sound fun hs hc => ?_
  -- what the other record has worked out is taken over with the rest
  refine Runs.mono (Runs.writeType ht (fun _ => (hs.type x).takeOver) fun memo hknows => ⟨x, by
    cases memo <;> exact hknows⟩) fun _ s₂ ho heq => ?_
  subst heq
  have hown := Store.type_setType_self (r := (s₁.type h).takeOver (s₁.type x)) (hc.type h ht).1
  refine ⟨?_, x, ho.upholds.isType hx, ?_⟩
  · rw [hown, he₁]
    rfl
  · -- a type may be recorded as its own base; its record then stays as it is
    unfold Store.Agrees
    by_cases hne : x = h
    · subst hne
      rfl
    · rw [hown, Store.type_setType_ne hne]
      rfl

omit hr ht he in
theorem typeKey_stripOptional (hne : cx.facts.stripOptional t ≠ t) :
    cx.facts.TypeKey (some (cx.facts.stripOptional t)) := by
  unfold Facts.stripOptional at hne ⊢
  split
  · rename_i u hu
    exact Facts.typeKey_known ((hf.type t).nonOptional u hu)
  · rename_i hnone
    rw [hnone] at hne
    exact absurd rfl hne

theorem runs_fillOther :
    Runs cx n c s (fillOther cx r t (cx.facts.type t) h) (fun _ s' =>
      s'.Made cx.facts h t (cx.facts.collapsed t) (.ok (Context.otherShape t (cx.facts.type t)))) := by
  have hfacts := hf.type t
  unfold fillOther Facts.collapsed Context.otherShape
  -- one branch for each rule, in the order of the rules; what an earlier rule refused stays known
  refine .branch (fun hunion => ?_) fun hunion => ?_
  · simp only [if_pos hunion]
    refine .branch (fun hne => ?_) fun heq => ?_
    · rw [if_pos hne]
      exact runs_fillFrom hr ht he (typeKey_stripOptional hf hne) _
    · rw [if_neg heq]
      refine Runs.bind (Runs.becomes ht he rfl fun hc => { hc with }) fun _ s₁ _ he₁ => ?_
      refine runs_part ht he₁ (asks_typeList hr hfacts.types) (fun ho => ho.upholds.isTypes)
        (fun _ => rfl) (fun hoperands hc => { hc with operands := .some hoperands.typesIn })
        fun operands s₂ _ hoperands he₂ => .of_showing ?_ rfl rfl
      exact .of_eq he₂ { Store.Shows.blank _ _ _ _ with operands := .some hoperands }
  simp only [if_neg hunion]
  refine .branch (fun hparameter => ?_) fun hparameter => ?_
  · simp only [hparameter, Bool.true_or, if_true]
    exact (runs_fillReference hf hr ht he _).mono fun _ _ _ hshows => .of_showing hshows rfl rfl
  simp only [hparameter, Bool.false_or, if_false, Bool.false_eq_true]
  refine .branch (fun haccess => ?_) fun haccess => ?_
  · simp only [haccess, Bool.true_or, if_true]
    refine Runs.bind (Runs.becomes ht he rfl fun hc => { hc with }) fun _ s₁ _ he₁ => ?_
    refine runs_partThen ht he₁ (asks_typeOrError hr hfacts.objectType) (fun ho => ho.upholds.isPart)
      (fun _ => rfl) (fun htarget hc => { hc with target := .some htarget.inside })
      fun target s₂ _ htarget he₂ => ?_
    refine runs_part ht he₂ (asks_typeOrError hr hfacts.indexType) (fun ho => ho.upholds.isPart)
      (fun _ => rfl) (fun hkey hc => { hc with key := .some hkey.inside })
      fun key s₃ ho hkey he₃ => .of_showing ?_ rfl rfl
    exact .of_eq he₃ { Store.Shows.blank _ _ _ _ with
      target := .some (ho.upholds.isPart htarget), key := .some hkey }
  simp only [haccess, Bool.false_or, if_false, Bool.false_eq_true]
  refine .branch (fun hkeyof => ?_) fun hkeyof => ?_
  · simp only [hkeyof, Bool.true_or, if_true]
    refine Runs.bind (Runs.becomes ht he rfl fun hc => { hc with }) fun _ s₁ _ he₁ => ?_
    refine runs_part ht he₁ (asks_typeOrError hr hfacts.target) (fun ho => ho.upholds.isPart)
      (fun _ => rfl) (fun htarget hc => { hc with target := .some htarget.inside })
      fun target s₂ _ htarget he₂ => .of_showing ?_ rfl rfl
    exact .of_eq he₂ { Store.Shows.blank _ _ _ _ with target := .some htarget }
  simp only [hkeyof, Bool.false_or, if_false, Bool.false_eq_true]
  refine .branch (fun hconditional => ?_) fun hconditional => ?_
  · simp only [hconditional, Bool.true_or, if_true]
    refine Runs.bind (Runs.becomes ht he rfl fun hc => { hc with }) fun _ s₁ _ he₁ => ?_
    -- the branches are those of the type so far, so there is no record among them
    have hbranches : ∀ (s' : Store) yes no, some (Branches.ofType t) = some (.records yes no) →
        s'.TypeIn yes ∧ s'.TypeIn no := fun _ _ _ h => nomatch h
    refine runs_partThen ht he₁ (asks_typeOrError hr hfacts.checkType) (fun ho => ho.upholds.isPart)
      (fun _ => rfl) (fun hcheck hc => { hc with checkType := .some hcheck.inside })
      fun check s₂ _ hcheck he₂ => ?_
    refine runs_part ht he₂ (asks_typeOrError hr hfacts.extendsType) (fun ho => ho.upholds.isPart)
      (fun _ => rfl)
      (fun hextended hc => { hc with extendsType := .some hextended.inside, branches := hbranches _ })
      fun extended s₃ ho hextended he₃ => .of_showing ?_ rfl rfl
    exact .of_eq he₃ { Store.Shows.blank _ _ _ _ with
      branches := rfl
      checkType := .some (ho.upholds.isPart hcheck)
      extendsType := .some hextended }
  simp only [hconditional, Bool.false_or, if_false, Bool.false_eq_true]
  refine .branch (fun hunique => ?_) fun hunique => ?_
  · simp only [hunique, if_true]
    refine Runs.mono (Runs.becomes ht he rfl fun hc => { hc with }) fun _ s₁ _ he₁ => .of_showing ?_ rfl rfl
    exact .of_eq he₁ { Store.Shows.blank _ _ _ _ with name := rfl }
  simp only [hunique, if_false, Bool.false_eq_true]
  split
  · rename_i base hsubstitution hbase
    simp only [hsubstitution, hbase, if_true, Option.map_some]
    exact runs_fillFrom hr ht he (Facts.typeKey_known (hfacts.baseType base hbase)) _
  · rename_i hnot
    -- a substitution without a base type falls through to the last rules
    have hnone : (if (cx.facts.type t).flags.meets TypeFlags.substitutions then
        (cx.facts.type t).baseType.map TypeRef.known else none) = none := by
      split
      · rename_i hsubstitution
        cases hbase : (cx.facts.type t).baseType with
        | none => rfl
        | some base => exact (hnot base hsubstitution hbase).elim
      · rfl
    rw [hnone]
    refine .branch (fun htemplate => ?_) fun htemplate => ?_
    · rw [if_pos htemplate]
      refine Runs.bind (Runs.becomes ht he rfl fun hc => { hc with }) fun _ s₁ _ he₁ => ?_
      refine runs_part ht he₁ (asks_templateSpans hr _ hfacts.types)
        (fun ho => List.Forall₂.imp fun _ _ => ho.upholds.isPiece) (fun _ => rfl)
        (fun hspans hc => { hc with spans := Store.spansIn_of_forall₂ hspans })
        fun spans s₂ _ hspans he₂ => .of_showing ?_ rfl rfl
      exact .of_eq he₂ { Store.Shows.blank _ _ _ _ with spans := .some hspans }
    · rw [if_neg htemplate]
      refine Runs.mono (Runs.becomes ht he rfl fun hc => { hc with }) fun _ s₁ _ he₁ => .of_showing ?_ rfl rfl
      exact .of_eq he₁ (Store.Shows.blank _ _ _ _)

omit hf hr ht he in
/-- Where the rules for object types fit there is a shape by one of them. -/
theorem isObject_iff (hobjects : (cx.facts.type t).flags.meets TypeFlags.objects) :
    cx.facts.isObject t = (cx.objectShape? t (cx.facts.type t)).isSome := by
  unfold Facts.isObject Context.objectShape?
  rw [hobjects, Bool.true_and]
  dsimp only
  split
  · rename_i hclass
    rw [hclass]
    rfl
  · rename_i hclass
    rw [Bool.not_eq_true] at hclass
    rw [hclass, Bool.false_or]
    split
    · rename_i hreference
      rw [hreference]
      rfl
    · rename_i hreference
      rw [Bool.not_eq_true] at hreference
      rw [hreference, Bool.false_or]
      split
      · assumption
      · rename_i hanonymous
        rw [Bool.not_eq_true] at hanonymous
        exact hanonymous

omit he in
/-- **A type record without regard to an alias.** -/
theorem runs_fillUnaliased (he : s.type h = {}) :
    Runs cx n c s (fillUnaliased cx r t h) (fun _ s' =>
      s'.Made cx.facts h t (cx.facts.unaliasedFrom t) (cx.unaliasedShape t)) := by
  unfold fillUnaliased Facts.unaliasedFrom Context.unaliasedShape
  refine Runs.bind (Runs.becomes ht he rfl fun hc => { hc with }) fun _ s₁ _ he₁ => ?_
  -- the three rules for literals differ in the kind only
  have hliteral : ∀ kind, Runs cx n c s₁ (fillLiteral (cx.facts.type t) kind h) (fun _ s' =>
      s'.Made cx.facts h t none (.ok (.literal (cx.facts.type t) kind))) := by
    intro kind
    refine Runs.mono (Runs.becomes ht he₁ rfl fun hc => { hc with }) fun _ s₂ _ he₂ => .of_showing ?_ rfl rfl
    exact .of_eq he₂ { Store.Shows.blank _ _ _ _ with value := rfl }
  refine .branch (fun hintrinsic => ?_) fun hintrinsic => ?_
  · simp only [hintrinsic, Bool.true_or, if_true]
    split
    · refine Runs.mono (Runs.becomes ht he₁ rfl fun hc => { hc with }) fun _ s₂ _ he₂ => .of_showing ?_ rfl rfl
      exact .of_eq he₂ (Store.Shows.blank _ _ _ _)
    · refine Runs.mono (Runs.becomes ht he₁ rfl fun hc => { hc with }) fun _ s₂ _ he₂ => .of_showing ?_ rfl rfl
      exact .of_eq he₂ { Store.Shows.blank _ _ _ _ with name := rfl }
  simp only [hintrinsic, Bool.false_or, if_false, Bool.false_eq_true]
  refine .branch (fun henum => ?_) fun henum => ?_
  · simp only [henum, Bool.true_or, if_true]
    exact (runs_fillReference hf hr ht he₁ _).mono fun _ _ _ hshows => .of_showing hshows rfl rfl
  simp only [henum, Bool.false_or, if_false, Bool.false_eq_true]
  refine .branch (fun hnumber => ?_) fun hnumber => ?_
  · simp only [hnumber, Bool.true_or, if_true]
    exact hliteral _
  simp only [hnumber, Bool.false_or, if_false, Bool.false_eq_true]
  refine .branch (fun hstring => ?_) fun hstring => ?_
  · simp only [hstring, Bool.true_or, if_true]
    exact hliteral _
  simp only [hstring, Bool.false_or, if_false, Bool.false_eq_true]
  refine .branch (fun hbigint => ?_) fun hbigint => ?_
  · simp only [hbigint, Bool.true_or, if_true]
    exact hliteral _
  simp only [hbigint, Bool.false_or, if_false, Bool.false_eq_true]
  -- an object type that no rule for objects fits goes on to the other rules
  refine .branch (fun hobjects => ?_) fun hobjects => ?_
  · rw [if_pos hobjects, isObject_iff hobjects]
    refine (runs_fillObject hf hr ht he₁).bind fun b s₂ _ hobject => ?_
    cases hshape : cx.objectShape? t (cx.facts.type t) with
    | none =>
      rw [hshape] at hobject
      obtain ⟨rfl, he₂⟩ := hobject
      exact runs_fillOther hf hr ht he₂
    | some shape =>
      rw [hshape] at hobject
      obtain ⟨rfl, sh, rfl, hshows⟩ := hobject
      exact .pure (.of_showing hshows rfl rfl)
  · have hnot : cx.facts.isObject t = false := by
      unfold Facts.isObject
      rw [Bool.not_eq_true] at hobjects
      rw [hobjects, Bool.false_and]
    rw [if_neg hobjects, hnot]
    exact runs_fillOther hf hr ht he₁

/-! ## 6. Aliases -/

omit he in
theorem runs_fillAliasRef (he : s.type h = {}) {symbol : SymbolId}
    (hsymbol : (cx.facts.type t).aliasSymbol = some symbol) :
    Runs cx n c s (fillAliasRef r t symbol h) (fun _ s' => ∃ m, s'.IsMember (some symbol) m ∧
      s'.type h =
        { kind := .aliasRef, raw := some t, member := some m, expansion := some (.ofType t) }) := by
  unfold fillAliasRef
  refine Runs.bind (Runs.becomes ht he rfl fun hc => { hc with }) fun _ s₁ _ he₁ => ?_
  have hkey := Facts.symbolKey_some ((hf.type t).aliasSymbol symbol hsymbol)
  have hexpansion : ∀ (s' : Store) o, some (Expansion.ofType t) = some (.record o) → s'.TypeIn o :=
    fun _ _ h => nomatch h
  exact runs_part ht he₁ (hr.asks_member hkey) (fun ho => ho.upholds.isMember) (fun _ => rfl)
    (fun hmember hc => { hc with member := .some hmember.inside, expansion := hexpansion _ })
    fun member s₂ _ hmember he₂ => ⟨member, hmember, he₂⟩

omit he in
/-- An alias with arguments: the reference to it is a new record. -/
theorem runs_fillAliasInstance (he : s.type h = {}) {symbol : SymbolId}
    (hsymbol : (cx.facts.type t).aliasSymbol = some symbol) :
    Runs cx n c s (do
      modifyType h (fun e => { e with kind := .genericInstantiation, raw := some t })
      let arguments ← typeList r (cx.facts.type t).aliasTypeArguments
      modifyType h (fun e => { e with typeArguments := some arguments })
      let target ← newType
      modifyType h (fun e => { e with target := some target })
      fillAliasRef r t symbol target
      complete (.type target)) (fun _ s' => s'.Showing cx.facts h t {
        kind := .genericInstantiation, target := some (.aliasOf t symbol)
        typeArguments := some (typeKeys (cx.facts.type t).aliasTypeArguments) }) := by
  refine Runs.bind (Runs.becomes ht he rfl fun hc => { hc with }) fun _ s₁ _ he₁ => ?_
  refine runs_partThen ht he₁ (asks_typeList hr (hf.type t).aliasTypeArguments)
    (fun ho => ho.upholds.isTypes) (fun _ => rfl)
    (fun harguments hc => { hc with typeArguments := .some harguments.typesIn })
    fun arguments s₃ _ harguments he₃ => ?_
  refine Runs.sound fun _ hc₃ => ?_
  refine Runs.bind Asks.newType fun target s₄ ho₄ ⟨hframed, hnew, hsize⟩ => ?_
  -- the reference is a record made just now, so what is written into it leaves the filled one alone
  have hne : target ≠ h := by
    rintro rfl
    exact absurd (hc₃.type _ ht).1 (Nat.not_lt.2 hsize)
  have he₄ : s₄.type h = _ := (hframed.type h (hc₃.type h ht).1).trans he₃
  refine Runs.sound fun _ hc₄ => ?_
  refine Runs.bind (Runs.writeType ht (fun hc => ?_) fun memo hknows => ⟨h, by
    cases memo <;> exact hknows⟩) fun _ s₅ ho₅ he₅ => ?_
  · rw [he₄] at hc ⊢
    exact { hc with target := .some hnew.loose.1 }
  have hown : s₅.type h = { s₄.type h with target := some target } := by
    rw [he₅, Store.type_setType_self (hc₄.type h ht).1]
  have hblank : s₅.type target = {} := by
    rw [he₅, Store.type_setType_ne hne]
    exact hnew.blank
  have hloose : c.Loose s₅ (.type target) := by
    refine hnew.loose.keyed ho₅.grows ?_
    rw [he₅]
    exact hnew.loose.2.2.2
  -- the reference is filled in a scope of its own, inside that of the record that holds it
  refine (Runs.withinType hloose (runs_fillAliasRef hf hr rfl hblank hsymbol)).bind
    fun _ s₆ ho₆ ⟨⟨hbesides, hloose₆⟩, m, hm, hcontent⟩ => ?_
  refine (Runs.complete hloose₆ (Store.typeDone_of_loose hloose₆)).mono fun _ s₇ ho₇ he₇ => ?_
  have hfinal : s₇.type h = { s₄.type h with target := some target } := by
    rw [he₇]
    show s₆.type h = _
    rw [hbesides.type h ((hc₄.type h ht).1.mono ho₅.extends) hne.symm, hown]
  rw [he₄] at hfinal
  refine .of_eq hfinal { Store.Shows.blank _ _ _ _ with target := .some ?_, typeArguments := .some ?_ }
  · refine ⟨m, ho₇.upholds.isMember hm, ?_⟩
    rw [he₇]
    refine ⟨hloose₆.1, hloose₆.2.2.1, List.mem_cons_self, ?_⟩
    show (s₆.type target).built = _
    rw [hcontent]
    rfl
  · exact (((ho₄.trans ho₅).trans ho₆).trans ho₇).upholds.isTypes harguments

omit he in
/-- **The record of a type.** -/
theorem runs_fillTypeExpr (he : s.type h = {}) (key : Option TypeRef) :
    Runs cx n c s (fillTypeExpr cx r key h) (fun _ s' =>
      ∃ t, key = some t ∧ s'.TypeMade cx s'.filled h t) := by
  unfold fillTypeExpr
  refine .ask (gives_present key) fun t _ hkey => ?_
  -- with a source the record agrees with the source's; without one it shows the shape of the type
  have hmade : ∀ s' : Store, s'.Made cx.facts h t (cx.facts.takenFrom t) (cx.shape t) →
      ∃ t, key = some t ∧ s'.TypeMade cx s'.filled h t := by
    refine fun s' hmade => ⟨t, hkey, hmade.1, ?_⟩
    cases hsource : cx.facts.takenFrom t with
    | none =>
      have hshape := hmade.2
      rw [hsource] at hshape
      exact hshape
    | some u =>
      have hagrees := hmade.2
      rw [hsource] at hagrees
      obtain ⟨x, hx, hsame⟩ := hagrees
      exact ⟨x, hx, fun _ => hsame⟩
  dsimp only
  cases hsymbol : (cx.facts.type t).aliasSymbol with
  | none =>
    refine (runs_fillUnaliased hf hr ht he).mono fun _ s' _ hs' => hmade s' ?_
    unfold Facts.takenFrom Context.shape
    dsimp only
    rw [hsymbol]
    exact hs'
  | some symbol =>
    have hsource : cx.facts.takenFrom t = none := by
      unfold Facts.takenFrom
      rw [hsymbol]
    have hshape : cx.shape t = if (cx.facts.type t).aliasTypeArguments.isEmpty then
        .ok { kind := .aliasRef, member := some symbol, expansion := some (.ofType t) }
      else .ok { kind := .genericInstantiation, target := some (.aliasOf t symbol)
                 typeArguments := some (typeKeys (cx.facts.type t).aliasTypeArguments) } := by
      unfold Context.shape
      dsimp only
      rw [hsymbol]
    refine .branch (fun hempty => ?_) fun hargs => ?_
    · rw [if_pos hempty] at hshape
      refine (runs_fillAliasRef hf hr ht he hsymbol).mono fun _ s' _ ⟨m, hm, hs'⟩ =>
        hmade s' (.of_showing ?_ hsource hshape)
      exact .of_eq hs' { Store.Shows.blank _ _ _ _ with member := .some hm, expansion := rfl }
    · rw [if_neg hargs] at hshape
      exact (runs_fillAliasInstance hf hr ht he hsymbol).mono fun _ s' _ hs' =>
        hmade s' (.of_showing hs' hsource hshape)

end Build

end ApiReference
