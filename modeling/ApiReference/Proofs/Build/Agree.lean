/-
  A larger bound changes nothing where a smaller one was enough.

  A build that is cut at the bound of its requests ends in the fault of an endless walk.  Where it does
  not, the same build with requests that go deeper does the same.

  1. `Agree`                -- two builds, the second doing what the first does unless that is cut;
  2. parts and members;
  3. types;
  4. `agree_requestsWithin` -- requests with a larger bound, and units.
-/
import ApiReference.Build.Requests

namespace ApiReference

/-! ## 1. Agreement -/

/-- **The second build does what the first does**, unless that walks without end. -/
def Agree {α : Type} (x y : Build α) : Prop :=
  ∀ s, (x.run s).1 ≠ .error .endless → y.run s = x.run s

/-- Requests that agree, one by one. -/
structure Requests.Agree (r r' : Requests) : Prop where
  member : ∀ key, ApiReference.Agree (r.member key) (r'.member key)
  type : ∀ key, ApiReference.Agree (r.type key) (r'.type key)

namespace Agree

variable {α β : Type} {x y : Build α}

theorem refl (x : Build α) : Agree x x := fun _ _ => rfl

/-- What is cut at once agrees with anything. -/
theorem cut (y : Build α) : Agree (throw .endless) y := fun _ hs => absurd rfl hs

theorem bind {g g' : α → Build β} (hx : Agree x y) (hg : ∀ a, Agree (g a) (g' a)) :
    Agree (x >>= g) (y >>= g') := by
  intro s hs
  change (ExceptT.bindCont g (x.run s).1 (x.run s).2).1 ≠ _ at hs
  show ExceptT.bindCont g' (y.run s).1 (y.run s).2 = ExceptT.bindCont g (x.run s).1 (x.run s).2
  rcases hr : x.run s with ⟨result, s'⟩
  rw [hr] at hs
  cases result with
  | ok a =>
    rw [hx s (by rw [hr]; exact fun h => nomatch h), hr]
    exact hg a s' hs
  | error f =>
    have hne : (x.run s).1 ≠ .error .endless := by
      rw [hr]
      intro h
      cases h
      exact hs rfl
    rw [hx s hne, hr]
    rfl

theorem mapM {xs : List β} {g g' : β → Build α} (hg : ∀ b, Agree (g b) (g' b)) :
    Agree (xs.mapM g) (xs.mapM g') := by
  induction xs with
  | nil => exact .refl _
  | cons b r ih =>
    rw [List.mapM_cons, List.mapM_cons]
    exact (hg b).bind fun a => ih.bind fun as => .refl _

theorem branch {p : Prop} [Decidable p] {x' y' : Build α} (hx : Agree x y) (hy : Agree x' y') :
    Agree (if p then x else x') (if p then y else y') := by
  by_cases hp : p
  · rw [if_pos hp, if_pos hp]
    exact hx
  · rw [if_neg hp, if_neg hp]
    exact hy

theorem nested (hx : Agree x y) : Agree (Build.nested x) (Build.nested y) := by
  intro s hs
  show ((y.run _).1, (y.run _).2.leave) = ((x.run _).1, (x.run _).2.leave)
  rw [hx _ hs]

end Agree

/-! ## 2. Parts and members -/

namespace Build

variable {cx : Context} {r r' : Requests} (hr : r.Agree r')
include hr

theorem agree_linkOverridden_go (symbol : SymbolId) (h : MemberHandle) (bases : List (Option TypeId)) :
    Agree (linkOverridden.go cx r symbol h bases) (linkOverridden.go cx r' symbol h bases) := by
  induction bases with
  | nil => exact .refl _
  | cons base rest ih =>
    unfold linkOverridden.go
    refine (Agree.refl _).bind fun o => ?_
    cases o with
    | none => exact ih
    | some t =>
      refine .branch ih ((hr.member _).bind fun b => (Agree.refl _).bind fun overridden => ?_)
      exact .branch ih (.refl _)

theorem agree_linkOverridden (symbol parent : SymbolId) (h : MemberHandle) :
    Agree (linkOverridden cx r symbol parent h) (linkOverridden cx r' symbol parent h) := by
  unfold linkOverridden
  refine .branch ?_ (.refl _)
  split
  · exact .refl _
  · exact agree_linkOverridden_go hr symbol h _

theorem agree_fillBase (comment : Comment) (symbol : SymbolId) (declaration : Option DeclarationId)
    (kind : MemberKind) (h : MemberHandle) :
    Agree (fillBase cx r comment symbol declaration kind h)
      (fillBase cx r' comment symbol declaration kind h) := by
  unfold fillBase
  refine (Agree.refl _).bind fun _ => (Agree.refl _).bind fun c => ?_
  split
  · refine (Agree.refl _).bind fun _ => ?_
    split
    · exact .refl _
    · refine (hr.member _).bind fun p => (Agree.refl _).bind fun _ => ?_
      exact agree_linkOverridden hr symbol _ h
  · exact .refl _

theorem agree_parameter (symbol : Option SymbolId) :
    Agree (parameter cx r symbol) (parameter cx r' symbol) := by
  unfold parameter
  exact (Agree.refl _).bind fun s => (hr.type _).bind fun t => .refl _

theorem agree_optionalType (t : Option TypeId) : Agree (optionalType r t) (optionalType r' t) := by
  unfold optionalType
  cases t with
  | none => exact .refl _
  | some t => exact (hr.type _).bind fun h => .refl _

theorem agree_typeParameters (ts : List (Option TypeId)) :
    Agree (typeParameters cx r ts) (typeParameters cx r' ts) := by
  unfold typeParameters
  split
  · exact .refl _
  · refine (Agree.mapM fun t => ?_).bind fun ps => .refl _
    unfold typeParameter
    refine (Agree.refl _).bind fun t => ?_
    exact (agree_optionalType hr _).bind fun c => (agree_optionalType hr _).bind fun d => .refl _

theorem agree_subParameters (h : MemberHandle) (tags : List ParamTag) :
    Agree (subParameters r h tags) (subParameters r' h tags) := by
  induction tags with
  | nil => exact .refl _
  | cons tag tags ih =>
    unfold subParameters
    refine .branch ((Agree.refl _).bind fun c => (Agree.refl _).bind fun o => ?_) ih
    cases o with
    | none => exact ih
    | some i => exact (agree_optionalType hr _).bind fun t => (Agree.refl _).bind fun _ => ih

theorem agree_fillSignature (symbol : SymbolId) (d : DeclarationId) (h : MemberHandle) :
    Agree (fillSignature cx r symbol d h) (fillSignature cx r' symbol d h) := by
  unfold fillSignature
  dsimp only
  split
  · unfold fillDeclared
    refine (agree_fillBase hr _ _ _ _ h).bind fun _ => (Agree.refl _).bind fun _ => ?_
    refine (agree_typeParameters hr _).bind fun _ => (Agree.refl _).bind fun _ => ?_
    refine (Agree.mapM fun p => agree_parameter hr p).bind fun _ => (Agree.refl _).bind fun _ => ?_
    refine (hr.type _).bind fun _ => (Agree.refl _).bind fun _ => (Agree.refl _).bind fun _ => ?_
    exact agree_subParameters hr h _
  · unfold fillAssigned
    exact (agree_fillBase hr _ _ _ _ h).bind fun _ => (hr.type _).bind fun t => .refl _

theorem agree_overloads (symbol : SymbolId) (canonical : DeclarationId) (ds : List DeclarationId) :
    Agree (overloads cx r symbol canonical ds) (overloads cx r' symbol canonical ds) := by
  induction ds with
  | nil => exact .refl _
  | cons d ds ih =>
    unfold overloads
    refine .branch ih ((Agree.refl _).bind fun o => ?_)
    refine (agree_fillSignature hr symbol d o).bind fun _ => (Agree.refl _).bind fun _ => ?_
    exact ih.bind fun os => .refl _

theorem agree_consolidate (symbol : SymbolId) (ds : List DeclarationId) (h : MemberHandle) :
    Agree (consolidate cx r symbol ds h) (consolidate cx r' symbol ds h) := by
  unfold consolidate
  dsimp only
  split
  · exact .refl _
  · refine (agree_fillSignature hr symbol _ h).bind fun _ => .branch (.refl _) ?_
    exact (agree_overloads hr symbol _ _).bind fun os => .refl _

theorem agree_ownOrView (symbol : SymbolId) (h : MemberHandle) (prop : Option SymbolId) :
    Agree (ownOrView cx r symbol h prop) (ownOrView cx r' symbol h prop) := by
  unfold ownOrView
  exact (hr.member _).bind fun child => .refl _

theorem agree_pseudoMember (symbol : SymbolId) (h : MemberHandle) (found : Option SymbolId) :
    Agree (pseudoMember cx r symbol h found) (pseudoMember cx r' symbol h found) := by
  unfold pseudoMember
  cases found with
  | none => exact .refl _
  | some s => exact (agree_ownOrView hr symbol h _).bind fun v => .refl _

theorem agree_fillInstanceSide (symbol : SymbolId) (declared : TypeRef) (h : MemberHandle) :
    Agree (fillInstanceSide cx r symbol declared h) (fillInstanceSide cx r' symbol declared h) := by
  unfold fillInstanceSide
  refine (hr.type _).bind fun _ => (Agree.refl _).bind fun _ => ?_
  refine (agree_typeParameters hr _).bind fun _ => (Agree.refl _).bind fun _ => ?_
  refine (Agree.mapM fun b => hr.type _).bind fun _ => (Agree.refl _).bind fun _ => ?_
  refine (Agree.refl _).bind fun props => ?_
  refine (Agree.mapM fun p => agree_ownOrView hr symbol h p).bind fun _ => ?_
  refine (Agree.refl _).bind fun _ => (agree_pseudoMember hr symbol h _).bind fun _ => ?_
  refine (Agree.refl _).bind fun _ => (agree_pseudoMember hr symbol h _).bind fun _ => ?_
  exact (Agree.refl _).bind fun _ => (agree_pseudoMember hr symbol h _).bind fun _ => .refl _

theorem agree_fillStatics (symbol : SymbolId) (h : MemberHandle) (props : List (Option SymbolId)) :
    Agree (fillStatics cx r symbol h props) (fillStatics cx r' symbol h props) := by
  induction props with
  | nil => exact .refl _
  | cons prop rest ih =>
    unfold fillStatics
    refine (Agree.refl _).bind fun p => .branch ih (.bind ?_ fun _ => ih)
    unfold fillStatic
    exact (hr.member _).bind fun own => .refl _

theorem agree_fillClass (symbol : SymbolId) (h : MemberHandle) :
    Agree (fillClass cx r symbol h) (fillClass cx r' symbol h) := by
  unfold fillClass
  refine (Agree.refl _).bind fun decl => (agree_fillBase hr _ _ _ _ h).bind fun _ => ?_
  refine (Agree.refl _).bind fun declared => (Agree.refl _).bind fun _ => ?_
  have hstatics : ∀ props, Agree (fillStatics cx r symbol h props) (fillStatics cx r' symbol h props) :=
    agree_fillStatics hr symbol h
  cases declared with
  | none =>
    refine .branch ((Agree.refl _).bind hstatics) ((Agree.mapM fun t => hr.type _).bind fun _ => ?_)
    exact (Agree.refl _).bind fun _ => (Agree.refl _).bind hstatics
  | some t =>
    refine (agree_fillInstanceSide hr symbol t h).bind fun _ => ?_
    refine .branch ((Agree.refl _).bind hstatics) ((Agree.mapM fun t => hr.type _).bind fun _ => ?_)
    exact (Agree.refl _).bind fun _ => (Agree.refl _).bind hstatics

theorem agree_fillType (t : TypeRef) (h : MemberHandle) : Agree (fillType r t h) (fillType r' t h) := by
  unfold fillType
  exact (hr.type _).bind fun t => .refl _

theorem agree_fillDeclaredType (symbol : SymbolId) (h : MemberHandle) :
    Agree (fillDeclaredType cx r symbol h) (fillDeclaredType cx r' symbol h) := by
  unfold fillDeclaredType
  split
  · exact .refl _
  · exact (hr.type _).bind fun t => .refl _

theorem agree_fillExports (symbol : SymbolId) (sorted : Bool) (h : MemberHandle) :
    Agree (fillExports cx r symbol sorted h) (fillExports cx r' symbol sorted h) := by
  unfold fillExports
  exact (Agree.mapM fun e => hr.member e).bind fun ms => .refl _

theorem agree_fillNamespace (symbol : SymbolId) (h : MemberHandle) :
    Agree (fillNamespace cx r symbol h) (fillNamespace cx r' symbol h) := by
  unfold fillNamespace
  refine (Agree.refl _).bind fun ds => (agree_fillBase hr _ _ _ _ h).bind fun _ => ?_
  exact agree_fillExports hr symbol _ h

theorem agree_fillFunction (symbol : SymbolId) (h : MemberHandle) :
    Agree (fillFunction cx r symbol h) (fillFunction cx r' symbol h) := by
  have hspace : ∀ m, Agree (do fillNamespace cx r symbol m; complete (.member m))
      (do fillNamespace cx r' symbol m; complete (.member m)) := fun m =>
    (agree_fillNamespace hr symbol m).bind fun _ => .refl _
  unfold fillFunction
  refine (Agree.refl _).bind fun ds => (agree_consolidate hr symbol ds h).bind fun _ => ?_
  refine .branch ((Agree.refl _).bind fun m => (Agree.refl _).bind fun _ => ?_) ?_
  · refine (agree_fillClass hr symbol m).bind fun _ => (Agree.refl _).bind fun _ => ?_
    exact .branch ((Agree.refl _).bind fun m => (Agree.refl _).bind fun _ => hspace m) (.refl _)
  · exact .branch ((Agree.refl _).bind fun m => (Agree.refl _).bind fun _ => hspace m) (.refl _)

/-- **The classification of symbols.** -/
theorem agree_fillMember (key : Option SymbolId) (h : MemberHandle) :
    Agree (fillMember cx r key h) (fillMember cx r' key h) := by
  unfold fillMember
  refine (Agree.refl _).bind fun symbol => ?_
  have hbase : ∀ comment d kind, Agree (fillBase cx r comment symbol d kind h)
      (fillBase cx r' comment symbol d kind h) := fun comment d kind =>
    agree_fillBase hr comment symbol d kind h
  have htype : ∀ t, Agree (fillType r t h) (fillType r' t h) := fun t => agree_fillType hr t h
  have hclass : Agree (fillClass cx r symbol h) (fillClass cx r' symbol h) :=
    agree_fillClass hr symbol h
  split
  · exact (hbase _ _ _).bind fun _ => htype _
  · rename_i d _
    refine .branch (agree_fillFunction hr symbol h) (.branch ?_ (.branch hclass (.branch ?_
      (.branch ?_ (.branch ?_ (.branch ?_ (.branch ?_ (.branch (agree_fillNamespace hr symbol h)
      (.branch ?_ (.branch ?_ (hbase _ _ _)))))))))))
    · unfold fillVariable
      refine .branch hclass ((hbase _ _ _).bind fun _ => ?_)
      exact .branch ((Agree.refl _).bind fun _ => (htype _).bind fun _ => .refl _)
        ((htype _).bind fun _ => .refl _)
    · unfold fillProperty
      exact (hbase _ _ _).bind fun _ => (htype _).bind fun _ => .refl _
    · unfold fillAccessor
      refine (hbase _ _ _).bind fun _ => ?_
      exact .branch (htype _) ((Agree.refl _).bind fun _ => htype _)
    · unfold fillEnumMember
      exact (hbase _ _ _).bind fun _ => .refl _
    · unfold fillEnum
      refine (Agree.refl _).bind fun d => (hbase _ _ _).bind fun _ => ?_
      have hrest : Agree (do fillDeclaredType cx r symbol h; fillExports cx r symbol false h)
          (do fillDeclaredType cx r' symbol h; fillExports cx r' symbol false h) :=
        (agree_fillDeclaredType hr symbol h).bind fun _ => agree_fillExports hr symbol _ h
      exact .branch ((Agree.refl _).bind fun _ => hrest) hrest
    · unfold fillTypeAlias
      refine (Agree.refl _).bind fun d => (hbase _ _ _).bind fun _ => ?_
      exact agree_fillDeclaredType hr symbol h
    · unfold fillAlias
      refine .branch ((hbase _ _ _).bind fun _ => htype _) (.branch (hbase _ _ _) ?_)
      exact (hr.member _).bind fun source => .refl _
    · unfold fillModule
      refine (hbase _ _ _).bind fun _ => (Agree.refl _).bind fun _ => ?_
      exact agree_fillExports hr symbol _ h

/-! ## 3. Types -/

theorem agree_typeList (ts : List (Option TypeId)) : Agree (typeList r ts) (typeList r' ts) :=
  .mapM fun _ => (hr.type _).bind fun _ => .refl _

theorem agree_typeOrError (t : Option TypeId) : Agree (typeOrError r t) (typeOrError r' t) := by
  unfold typeOrError
  cases t with
  | some t => exact hr.type _
  | none => exact .refl _

theorem agree_fillReference (t : TypeFacts) (kind : TypeKind) (h : TypeHandle) :
    Agree (fillReference r t kind h) (fillReference r' t kind h) := by
  unfold fillReference memberOf
  refine (Agree.refl _).bind fun _ => .bind ?_ fun _ => .refl _
  split
  · exact .refl _
  · exact (hr.member _).bind fun m => .refl _

theorem agree_fillTypeSignature (signature : Option SignatureId) (h : TypeHandle) :
    Agree (fillTypeSignature cx r signature h) (fillTypeSignature cx r' signature h) := by
  unfold fillTypeSignature
  refine (Agree.refl _).bind fun _ => (Agree.refl _).bind fun sig => ?_
  refine (agree_typeParameters hr _).bind fun _ => (Agree.refl _).bind fun _ => ?_
  refine (Agree.mapM fun p => agree_parameter hr p).bind fun _ => (Agree.refl _).bind fun _ => ?_
  exact (hr.type _).bind fun t => .refl _

theorem agree_foundMember (found : Option SymbolId) :
    Agree (foundMember r found) (foundMember r' found) := by
  unfold foundMember
  cases found with
  | none => exact .refl _
  | some s => exact (hr.member _).bind fun m => .refl _

theorem agree_fillAnonymous (t : TypeRef) (properties : List (Option SymbolId)) (h : TypeHandle) :
    Agree (fillAnonymous cx r t properties h) (fillAnonymous cx r' t properties h) := by
  unfold fillAnonymous
  refine (Agree.refl _).bind fun _ => (Agree.mapM fun p => hr.member p).bind fun _ => ?_
  refine (Agree.refl _).bind fun _ => (agree_foundMember hr _).bind fun _ => ?_
  refine (Agree.refl _).bind fun _ => (agree_foundMember hr _).bind fun _ => ?_
  exact (Agree.refl _).bind fun _ => (agree_foundMember hr _).bind fun _ => .refl _

theorem agree_fillGeneric (facts : TypeFacts) (h : TypeHandle) :
    Agree (fillGeneric cx r facts h) (fillGeneric cx r' facts h) := by
  unfold fillGeneric
  refine .branch ((Agree.refl _).bind fun _ => (hr.type _).bind fun _ => .refl _) (.branch ?_ ?_)
  · exact (Agree.refl _).bind fun _ => (agree_typeList hr _).bind fun _ => .refl _
  · refine (Agree.refl _).bind fun _ => (agree_typeOrError hr _).bind fun _ => ?_
    exact (Agree.refl _).bind fun _ => (agree_typeList hr _).bind fun _ => .refl _

theorem agree_fillUnnamed (t : TypeRef) (facts : TypeFacts) (h : TypeHandle) :
    Agree (fillUnnamed cx r t facts h) (fillUnnamed cx r' t facts h) := by
  unfold fillUnnamed
  split
  · exact (Agree.refl _).bind fun _ => (hr.member _).bind fun m => .refl _
  · refine (Agree.refl _).bind fun properties => ?_
    dsimp only
    split
    · exact (Agree.refl _).bind fun _ => agree_fillTypeSignature hr _ h
    · refine (Agree.refl _).bind fun _ => (agree_fillTypeSignature hr _ h).bind fun _ => .refl _
    · exact agree_fillAnonymous hr t properties h

theorem agree_fillObject (t : TypeRef) (facts : TypeFacts) (h : TypeHandle) :
    Agree (fillObject cx r t facts h) (fillObject cx r' t facts h) := by
  unfold fillObject
  refine .branch ((agree_fillReference hr _ _ h).bind fun _ => .refl _) (.branch ?_ (.branch ?_ ?_))
  · exact (agree_fillGeneric hr _ h).bind fun _ => .refl _
  · exact (agree_fillUnnamed hr t _ h).bind fun _ => .refl _
  · exact .refl _

theorem agree_templateSpans (texts : List String) (ts : List (Option TypeId)) :
    Agree (templateSpans r texts ts) (templateSpans r' texts ts) := by
  induction texts generalizing ts with
  | nil => exact .refl _
  | cons text texts ih =>
    cases ts with
    | nil => exact .refl _
    | cons t ts =>
      unfold templateSpans
      exact (hr.type _).bind fun h => (ih ts).bind fun spans => .refl _

theorem agree_fillFrom (source : TypeRef) (h : TypeHandle) :
    Agree (fillFrom r source h) (fillFrom r' source h) := by
  unfold fillFrom
  exact (hr.type _).bind fun s => .refl _

theorem agree_fillOther (t : TypeRef) (facts : TypeFacts) (h : TypeHandle) :
    Agree (fillOther cx r t facts h) (fillOther cx r' t facts h) := by
  unfold fillOther
  refine .branch (.branch (agree_fillFrom hr _ h) ?_) (.branch (agree_fillReference hr _ _ h)
    (.branch ?_ (.branch ?_ (.branch ?_ (.branch (.refl _) ?_)))))
  · exact (Agree.refl _).bind fun _ => (agree_typeList hr _).bind fun _ => .refl _
  · refine (Agree.refl _).bind fun _ => (agree_typeOrError hr _).bind fun _ => ?_
    exact (Agree.refl _).bind fun _ => (agree_typeOrError hr _).bind fun _ => .refl _
  · exact (Agree.refl _).bind fun _ => (agree_typeOrError hr _).bind fun _ => .refl _
  · refine (Agree.refl _).bind fun _ => (agree_typeOrError hr _).bind fun _ => ?_
    exact (Agree.refl _).bind fun _ => (agree_typeOrError hr _).bind fun _ => .refl _
  · split
    · exact agree_fillFrom hr _ h
    · refine .branch ?_ (.refl _)
      exact (Agree.refl _).bind fun _ => (agree_templateSpans hr _ _).bind fun _ => .refl _

theorem agree_fillUnaliased (t : TypeRef) (h : TypeHandle) :
    Agree (fillUnaliased cx r t h) (fillUnaliased cx r' t h) := by
  have hother : ∀ facts, Agree (fillOther cx r t facts h) (fillOther cx r' t facts h) :=
    fun facts => agree_fillOther hr t facts h
  unfold fillUnaliased
  refine (Agree.refl _).bind fun _ => .branch (.refl _) (.branch (agree_fillReference hr _ _ h)
    (.branch (.refl _) (.branch (.refl _) (.branch (.refl _) (.branch ?_ (hother _))))))
  exact (agree_fillObject hr t _ h).bind fun b => .branch (.refl _) (hother _)

theorem agree_fillAliasRef (t : TypeRef) (symbol : SymbolId) (h : TypeHandle) :
    Agree (fillAliasRef r t symbol h) (fillAliasRef r' t symbol h) := by
  unfold fillAliasRef
  exact (Agree.refl _).bind fun _ => (hr.member _).bind fun m => .refl _

/-- **The rules for types.** -/
theorem agree_fillTypeExpr (key : Option TypeRef) (h : TypeHandle) :
    Agree (fillTypeExpr cx r key h) (fillTypeExpr cx r' key h) := by
  unfold fillTypeExpr
  refine (Agree.refl _).bind fun t => ?_
  dsimp only
  split
  · exact agree_fillUnaliased hr t h
  · refine .branch (agree_fillAliasRef hr t _ h) ((Agree.refl _).bind fun _ => ?_)
    refine (agree_typeList hr _).bind fun _ => (Agree.refl _).bind fun _ => ?_
    refine (Agree.refl _).bind fun target => (Agree.refl _).bind fun _ => ?_
    exact (agree_fillAliasRef hr t _ target).bind fun _ => .refl _

/-! ## 4. Requests -/

omit hr in
theorem agree_requestMember {fill fill' : Option SymbolId → MemberHandle → Build PUnit}
    (hfill : ∀ k h, Agree (fill k h) (fill' k h)) (key : Option SymbolId) :
    Agree (requestMember fill key) (requestMember fill' key) := by
  refine .nested ((Agree.refl _).bind fun s => ?_)
  split
  · exact .refl _
  · exact (Agree.refl _).bind fun h => (hfill key h).bind fun _ => .refl _

omit hr in
theorem agree_requestType {fill fill' : Option TypeRef → TypeHandle → Build PUnit}
    (hfill : ∀ k h, Agree (fill k h) (fill' k h)) (key : Option TypeRef) :
    Agree (requestType fill key) (requestType fill' key) := by
  refine .nested ((Agree.refl _).bind fun s => ?_)
  split
  · exact .refl _
  · exact (Agree.refl _).bind fun h => (hfill key h).bind fun _ => .refl _

omit hr in
theorem agree_requestUnit {fill fill' : SymbolId → UnitFacts → UnitHandle → Build PUnit}
    (hfill : ∀ root u h, Agree (fill root u h) (fill' root u h)) (position : Nat) :
    Agree (requestUnit cx fill position) (requestUnit cx fill' position) := by
  unfold requestUnit
  refine (Agree.refl _).bind fun s => ?_
  split
  · exact .refl _
  · dsimp only
    split
    · exact .refl _
    · refine .nested ((Agree.refl _).bind fun h => ?_)
      exact (hfill _ _ h).bind fun _ => .refl _

omit hr in
/-- Requests with a larger bound agree with those of a smaller one. -/
theorem agree_requestsWithin {n m : Nat} (hnm : n ≤ m) :
    (requestsWithin cx n).Agree (requestsWithin cx m) := by
  induction n generalizing m with
  | zero =>
    cases m with
    | zero => exact ⟨fun _ => .refl _, fun _ => .refl _⟩
    | succ m =>
      rw [requestsWithin, requestsWithin]
      exact ⟨agree_requestMember fun _ _ => .cut _, agree_requestType fun _ _ => .cut _⟩
  | succ n ih =>
    obtain ⟨m, rfl⟩ := Nat.exists_eq_succ_of_ne_zero (Nat.ne_of_gt (Nat.lt_of_lt_of_le n.succ_pos hnm))
    have hr := ih (Nat.le_of_succ_le_succ hnm)
    rw [requestsWithin, requestsWithin]
    exact ⟨agree_requestMember fun k h => agree_fillMember hr k h,
      agree_requestType fun k h => agree_fillTypeExpr hr k h⟩

omit hr in
theorem agree_unitWithin {n m : Nat} (hnm : n ≤ m) (position : Nat) :
    Agree (unitWithin cx n position) (unitWithin cx m position) := by
  cases n with
  | zero =>
    cases m with
    | zero => exact .refl _
    | succ m =>
      rw [unitWithin, unitWithin]
      exact agree_requestUnit (fun _ _ _ => .cut _) position
  | succ n =>
    obtain ⟨m, rfl⟩ := Nat.exists_eq_succ_of_ne_zero (Nat.ne_of_gt (Nat.lt_of_lt_of_le n.succ_pos hnm))
    rw [unitWithin, unitWithin]
    refine agree_requestUnit (fun root u h => ?_) position
    unfold fillUnit
    refine (Agree.refl _).bind fun _ => .bind ?_ fun _ => .refl _
    exact .mapM fun e => (agree_requestsWithin (Nat.le_of_succ_le_succ hnm)).member e

end Build

end ApiReference
