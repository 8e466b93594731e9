/-
  A rendering that succeeded gives the same again.

  A walk over the records of a store reads fields that never change once they are built, and the
  branches of conditional types, which are kept once they are resolved.  So a walk that came to its end
  comes to the same end over any later store, where the fuel is larger.

  1. `Lasts`            -- whatever the first gives, the second gives;
  2. one record, given walks that keep their results;
  3. the walk, its tokens and its text;
  4. parameters, members and units as data.
-/
import ApiReference.Proofs.Build.Rest

namespace ApiReference

/-! ## 1. Results that are kept -/

/-- **Whatever the first rendering gives, the second gives.** -/
def Lasts {α : Type} (x y : Rendering α) : Prop := ∀ a, x = .ok a → y = .ok a

namespace Lasts

variable {α β : Type}

theorem refl (x : Rendering α) : Lasts x x := fun _ h => h

theorem throw (e : Stop) (y : Rendering α) : Lasts (throw e) y := fun _ h => nomatch h

theorem bind_ok {x y : Rendering α} {f g : α → Rendering β} (hx : Lasts x y)
    (hf : ∀ a, x = .ok a → Lasts (f a) (g a)) : Lasts (x >>= f) (y >>= g) := by
  intro b hb
  cases x with
  | error e => exact nomatch hb
  | ok a =>
    rw [hx a rfl]
    exact hf a rfl b hb

theorem bind {x y : Rendering α} {f g : α → Rendering β} (hx : Lasts x y)
    (hf : ∀ a, Lasts (f a) (g a)) : Lasts (x >>= f) (y >>= g) :=
  hx.bind_ok fun a _ => hf a

theorem mapM {xs : List α} {f g : α → Rendering β} (hf : ∀ a ∈ xs, Lasts (f a) (g a)) :
    Lasts (xs.mapM f) (xs.mapM g) := by
  induction xs with
  | nil => exact .refl _
  | cons a r ih =>
    rw [List.mapM_cons, List.mapM_cons]
    refine (hf a List.mem_cons_self).bind fun b => ?_
    exact (ih fun x hx => hf x (List.mem_cons_of_mem a hx)).bind fun bs => .refl _

end Lasts

/-- A text of type records that does not read what is worked out on first use. -/
def Style.Steady (st : Style) : Prop := ∀ t t' : TypeExpr, t.Later t' → st.rawText t' = st.rawText t

/-- What holds of the elements of an optional list holds of those there are. -/
theorem forall_getD {α : Type} {P : α → Prop} {o : Option (List α)}
    (h : ∀ xs ∈ o, ∀ x ∈ xs, P x) : ∀ x ∈ o.getD [], P x := by
  cases o with
  | none => exact fun x hx => absurd hx List.not_mem_nil
  | some xs => exact h xs rfl

namespace Style

open Token

variable {s s' : Store} {st : Style} {walk walk' : Walk}

/-- Walks over the types of a store that keep their results. -/
def WalkKeeps (s : Store) (walk walk' : Walk) : Prop :=
  ∀ depth t, s.TypeIn t → Lasts (walk depth t) (walk' depth t)

/-! ## 2. One record -/

section Parts

variable (hw : WalkKeeps s walk walk')
include hw

theorem lasts_parameter (depth : Nat) {p : Parameter} (hp : p.Refers s.toModel) :
    Lasts (parameter walk depth p) (parameter walk' depth p) := by
  obtain ⟨htype, -⟩ := hp
  unfold parameter
  exact (hw depth _ htype).bind fun type => .refl _

theorem lasts_parameters (depth : Nat) {ps : List Parameter} (hps : ∀ p ∈ ps, p.Refers s.toModel) :
    Lasts (parameters walk depth ps) (parameters walk' depth ps) := by
  unfold parameters
  exact (Lasts.mapM fun p hp => lasts_parameter hw depth (hps p hp)).bind fun entries => .refl _

/-- A type that may be missing, and what goes on with its tokens. -/
theorem lasts_optionalType (depth : Nat) {o : Option TypeHandle} (first : Token)
    {k k' : List Token → Rendering (List Token)} (hk : ∀ l, Lasts (k l) (k' l)) : s.TypeIn o → Lasts
      (match o with
        | none => pure [] >>= k
        | some h => walk depth (some h) >>= fun l => pure (first :: l) >>= k)
      (match o with
        | none => pure [] >>= k'
        | some h => walk' depth (some h) >>= fun l => pure (first :: l) >>= k') := by
  intro ho
  cases o with
  | none => exact hk []
  | some h => exact (hw depth _ ho).bind fun l => hk (first :: l)

theorem lasts_typeParameter (depth : Nat) {p : TypeParameter} (hp : p.Refers s.toModel) :
    Lasts (typeParameter walk depth p) (typeParameter walk' depth p) := by
  unfold typeParameter
  dsimp only
  refine lasts_optionalType hw depth _ (fun constraint => ?_) hp.constraint
  exact lasts_optionalType hw depth _ (fun default => .refl _) hp.default

theorem lasts_function (depth : Nat) {t : TypeExpr} (ht : t.Refers s.toModel) :
    Lasts (st.function walk depth t) (st.function walk' depth t) := by
  have hrest : ∀ k : List Token → List Token → Rendering (List Token), Lasts
      (parameters walk (depth + 1) (t.parameters.getD []) >>= fun ps =>
        walk (depth + 1) t.returnType >>= fun r => k ps r)
      (parameters walk' (depth + 1) (t.parameters.getD []) >>= fun ps =>
        walk' (depth + 1) t.returnType >>= fun r => k ps r) := fun k =>
    (lasts_parameters hw _ (forall_getD ht.parameters)).bind fun ps =>
      (hw _ _ ht.returnType).bind fun r => .refl _
  unfold function
  dsimp only
  split
  · exact hrest _
  · exact hrest _
  · rename_i ps _ hps
    refine (Lasts.mapM fun p hp => ?_).bind fun l => hrest _
    exact lasts_typeParameter hw _ (ht.typeParameters ps hps p hp)

theorem lasts_returns (depth : Nat) {c : Member} (hc : c.Refers s.toModel) :
    Lasts (returns walk depth c) (returns walk' depth c) := by
  unfold returns
  exact (hw depth _ hc.returnType).bind fun type => .refl _

theorem lasts_indexKey (depth : Nat) {ps : List Parameter} (hps : ∀ p ∈ ps, p.Refers s.toModel) :
    Lasts (indexKey walk depth ps) (indexKey walk' depth ps) := by
  cases ps with
  | nil => exact .refl _
  | cons p ps =>
    obtain ⟨htype, -⟩ := hps p List.mem_cons_self
    exact (hw depth _ htype).bind fun type => .refl _

theorem lasts_template (depth : Nat) {t : TypeExpr} (ht : t.Refers s.toModel) :
    Lasts (template walk depth t) (template walk' depth t) := by
  unfold template
  refine Lasts.bind (.mapM fun span hspan => ?_) fun spans => .refl _
  cases span with
  | text text => exact .refl _
  | type o =>
    have hin : s.TypeIn o := by
      cases hss : t.spans with
      | none =>
        rw [hss] at hspan
        exact absurd hspan List.not_mem_nil
      | some ss =>
        rw [hss] at hspan
        exact ht.spans ss hss o hspan
    exact (hw depth o hin).bind fun tokens => .refl _

variable (hfrozen : s.Frozen s')
include hfrozen

omit hw in
theorem kind_later {h : TypeHandle} (hh : s.HasType h) : (s'.type h).kind = (s.type h).kind := by
  rw [(hfrozen.type h hh).fields]

theorem lasts_wrapped (depth : Nat) {t : Option TypeHandle} (ht : s.TypeIn t) :
    Lasts (wrapped s.toModel walk depth t) (wrapped s'.toModel walk' depth t) := by
  unfold wrapped
  refine (hw depth t ht).bind fun tokens => ?_
  cases t with
  | none => exact .refl _
  | some h =>
    have hkind := kind_later hfrozen (ht h rfl)
    dsimp only
    rw [hkind]
    exact .refl _

theorem lasts_operands (depth : Nat) {t : TypeExpr} (ht : t.Refers s.toModel) :
    Lasts (st.operands s.toModel walk depth t) (st.operands s'.toModel walk' depth t) := by
  unfold operands
  refine Lasts.bind (.mapM fun o ho => ?_) fun entries => .refl _
  have hin : s.TypeIn o := forall_getD ht.operands o ho
  refine (hw depth o hin).bind fun tokens => ?_
  cases o with
  | none => exact .throw _ _
  | some h =>
    have hkind := kind_later hfrozen (hin h rfl)
    dsimp only
    rw [hkind]
    exact .refl _

theorem lasts_objectMember (hs : s.Sound) (depth : Nat) {child : Option MemberHandle}
    (hchild : s.MemberIn child) :
    Lasts (objectMember s.toModel walk depth child) (objectMember s'.toModel walk' depth child) := by
  unfold objectMember
  cases child with
  | none => exact .throw _ _
  | some h =>
    have hsame : s'.member h = s.member h := hfrozen.member h (hchild h rfl)
    have hc := hs.member h
    have hps := forall_getD hc.parameters
    dsimp only
    rw [hsame]
    have hparameters := lasts_parameters hw depth hps
    have hreturns := lasts_returns hw depth hc
    split
    · exact hparameters.bind fun ps => hreturns.bind fun r => .refl _
    · exact hparameters.bind fun ps => hreturns.bind fun r => .refl _
    · exact (lasts_indexKey hw depth hps).bind fun key => hreturns.bind fun r => .refl _
    · exact (Lasts.refl _).bind fun name => hparameters.bind fun ps => hreturns.bind fun r => .refl _
    · exact (Lasts.refl _).bind fun name => hparameters.bind fun ps => hreturns.bind fun r => .refl _
    · refine (Lasts.refl _).bind fun name => ?_
      cases ht : (s.member h).type with
      | none => exact .refl _
      | some t => exact (hw depth _ (ht ▸ hc.type)).bind fun type => .refl _

theorem lasts_object (hs : s.Sound) (depth : Nat) {t : TypeExpr} (ht : t.Refers s.toModel) :
    Lasts (st.object s.toModel walk depth t) (st.object s'.toModel walk' depth t) := by
  unfold object
  refine Lasts.bind (.mapM fun c hc => ?_) fun entries => .refl _
  exact lasts_objectMember hw hfrozen hs depth (forall_getD ht.members c hc)

end Parts

/-- The branches of a conditional record that shows them are kept. -/
theorem lasts_branchesOf (h : TypeHandle) {t t' : TypeExpr} (hlater : t.Later t') :
    Lasts (branchesOf h t) (branchesOf h t') := by
  have hsource : t'.branches = t.branches := by rw [hlater.fields]
  unfold branchesOf
  rw [hsource]
  cases hr : t.resolved with
  | some pair =>
    rw [hlater.resolved pair hr]
    exact .refl _
  | none =>
    cases hb : t.branches with
    | some source => exact .throw _ _
    | none =>
      rw [hlater.branches hb, hr]
      exact .refl _

/-- Branches that a record shows are there. -/
theorem typeIn_branchesOf (hs : s.Sound) (h : TypeHandle) {pair : Option TypeHandle × Option TypeHandle}
    (hpair : branchesOf h (s.type h) = .ok pair) : s.TypeIn pair.1 ∧ s.TypeIn pair.2 := by
  unfold branchesOf at hpair
  split at hpair
  · rename_i p hp
    cases hpair
    exact (hs.type h).resolved _ hp
  · split at hpair
    · exact nomatch hpair
    · cases hpair
      exact ⟨.none, .none⟩

section Node

variable (hs : s.Sound) (hfrozen : s.Frozen s')
include hs hfrozen

theorem memberName_later (hst : st.Steady) {h : TypeHandle} (hh : s.HasType h) :
    st.memberName s'.toModel (s'.type h) = st.memberName s.toModel (s.type h) := by
  have hlater := hfrozen.type h hh
  have hmember : (s'.type h).member = (s.type h).member := by rw [hlater.fields]
  unfold memberName
  rw [hmember, hst _ _ hlater]
  cases hm : (s.type h).member with
  | none => rfl
  | some c =>
    have hsame : s'.member c = s.member c := hfrozen.member c ((hs.type h).member c hm)
    dsimp only
    rw [hsame]

/-- **One record keeps its tokens**, if its parts do. -/
theorem lasts_node (hst : st.Steady) (hw : WalkKeeps s walk walk') (depth : Nat) {h : TypeHandle}
    (hh : s.HasType h) :
    Lasts (st.node s.toModel walk depth h) (st.node s'.toModel walk' depth h) := by
  have hlater := hfrozen.type h hh
  have ht := hs.type h
  have hname := memberName_later hs hfrozen hst hh
  have htext := hst _ _ hlater
  have hbranches := lasts_branchesOf h hlater
  unfold node
  dsimp only
  rw [hname, htext]
  -- apart from what is worked out on first use the record is the same
  rw [hlater.fields] at hbranches ⊢
  dsimp only
  cases hkind : (s.type h).kind with
  | enumMemberRef =>
    have hparent : ((s.type h).member.bind fun c => (s'.member c).parent) =
        (s.type h).member.bind fun c => (s.member c).parent := by
      cases hm : (s.type h).member with
      | none => rfl
      | some c =>
        exact congrArg Member.parent (hfrozen.member c (ht.member c hm))
    dsimp only
    rw [hparent]
    cases hp : (s.type h).member.bind fun c => (s.member c).parent with
    | none => exact .refl _
    | some p =>
      obtain ⟨c, -, hc⟩ := Option.bind_eq_some_iff.1 hp
      have hsame : s'.member p = s.member p := hfrozen.member p ((hs.member c).parent p hc)
      dsimp only
      rw [hsame]
      exact .refl _
  | conditional =>
    refine (hw _ _ ht.checkType).bind fun check => (hw _ _ ht.extendsType).bind fun extended => ?_
    refine hbranches.bind_ok fun pair hpair => ?_
    obtain ⟨hyes, hno⟩ := typeIn_branchesOf hs h hpair
    exact (hw _ _ hyes).bind fun yes => (hw _ _ hno).bind fun no => .refl _
  | array => exact (lasts_wrapped hw hfrozen _ ht.element).bind fun l => .refl _
  | keyOf => exact (lasts_wrapped hw hfrozen _ ht.target).bind fun l => .refl _
  | indexedAccess =>
    exact (lasts_wrapped hw hfrozen _ ht.target).bind fun l => (hw _ _ ht.key).bind fun k => .refl _
  | tuple =>
    exact (Lasts.mapM fun o ho => hw _ o (forall_getD ht.elements o ho)).bind fun l => .refl _
  | genericInstantiation =>
    exact (Lasts.mapM fun o ho => hw _ o (forall_getD ht.typeArguments o ho)).bind fun l =>
      (hw _ _ ht.target).bind fun k => .refl _
  | union =>
    dsimp only
    rw [← hkind]
    exact lasts_operands hw hfrozen _ ht
  | intersection =>
    dsimp only
    rw [← hkind]
    exact lasts_operands hw hfrozen _ ht
  | functionSignature => exact lasts_function hw _ ht
  | constructorSignature =>
    exact (lasts_parameters hw _ (forall_getD ht.parameters)).bind fun l =>
      (hw _ _ ht.returnType).bind fun k => .refl _
  | anonymousObject => exact lasts_object hw hfrozen hs _ ht
  | templateLiteral => exact lasts_template hw _ ht
  | _ => exact .refl _

/-! ## 3. The walk -/

/-- **A walk keeps its tokens**, with more fuel and over a later store. -/
theorem lasts_walk (hst : st.Steady) {n n' : Nat} (hn : n ≤ n') (active : List TypeHandle) :
    WalkKeeps s (st.walk s.toModel n active) (st.walk s'.toModel n' active) := by
  induction n generalizing n' active with
  | zero => exact fun depth t _ => .throw _ _
  | succ n ih =>
    obtain ⟨k, rfl⟩ : ∃ k, n' = k + 1 := ⟨n' - 1, by omega⟩
    intro depth t ht
    cases t with
    | none => exact .refl _
    | some h =>
      unfold walk
      by_cases hactive : h ∈ active
      · rw [if_pos hactive, if_pos hactive]
        exact .refl _
      · rw [if_neg hactive, if_neg hactive]
        exact lasts_node hs hfrozen hst (ih (by omega) (h :: active)) depth (ht h rfl)

theorem lasts_tokens (hst : st.Steady) {t : Option TypeHandle} (ht : s.TypeIn t) :
    Lasts (st.tokens s.toModel t) (st.tokens s'.toModel t) :=
  lasts_walk hs hfrozen hst (Nat.add_le_add_right hfrozen.grows.types.size 2) [] 0 t ht

theorem lasts_text (hst : st.Steady) {t : Option TypeHandle} (ht : s.TypeIn t) :
    Lasts (st.text s.toModel t) (st.text s'.toModel t) :=
  (lasts_tokens hs hfrozen hst ht).bind fun _ => .refl _

end Node

end Style

/-! ## 4. Data -/

namespace Dump

variable {s s' : Store} (hs : s.Sound) (hfrozen : s.Frozen s') {st : Style} (hst : st.Steady)
include hs hfrozen hst

theorem lasts_typeField (key : String) {t : Option TypeHandle} (ht : s.TypeIn t) :
    Lasts (typeField st s.toModel key t) (typeField st s'.toModel key t) := by
  cases t with
  | none => exact .refl _
  | some h => exact (Style.lasts_text hs hfrozen hst ht).bind fun text => .refl _

theorem lasts_typesField (key : String) {ts : Option (List (Option TypeHandle))} (hts : s.TypesIn ts) :
    Lasts (typesField st s.toModel key ts) (typesField st s'.toModel key ts) := by
  have hin := forall_getD hts
  unfold typesField
  generalize ts.getD [] = l at hin
  cases l with
  | nil => exact .refl _
  | cons t l =>
    exact (Lasts.mapM fun o ho => Style.lasts_text hs hfrozen hst (hin o ho)).bind fun texts => .refl _

theorem lasts_parameterFields {p : Parameter} (hp : s.TypeIn p.type) :
    Lasts (parameterFields st s.toModel p) (parameterFields st s'.toModel p) := by
  unfold parameterFields
  exact (lasts_typeField hs hfrozen hst _ hp).bind fun type => .refl _

omit hs hfrozen hst in
/-- Parameters in order, given each. -/
theorem lasts_parameterList {ps : List Parameter}
    (hps : ∀ p ∈ ps, Lasts (parameter st s.toModel p) (parameter st s'.toModel p)) :
    Lasts (parameterList st s.toModel ps) (parameterList st s'.toModel ps) := by
  induction ps with
  | nil =>
    rw [parameterList, parameterList]
    exact .refl _
  | cons p ps ih =>
    rw [parameterList, parameterList]
    refine (hps p List.mem_cons_self).bind fun first => ?_
    exact (ih fun q hq => hps q (List.mem_cons_of_mem p hq)).bind fun others => .refl _

/-- **A parameter and its parts keep their data.** -/
theorem lasts_parameter {p : Parameter} (hp : p.Refers s.toModel) :
    Lasts (parameter st s.toModel p) (parameter st s'.toModel p) := by
  induction hp with
  | @intro p htype _ ih =>
    obtain ⟨name, type, summary, rest, optional, default, subs, raw⟩ := p
    rw [parameter, parameter]
    refine (lasts_parameterFields hs hfrozen hst htype).bind fun fields => ?_
    match subs, ih with
    | none, _ => exact .refl _
    | some [], _ => exact .refl _
    | some (q :: qs), ih =>
      refine (ih _ rfl q List.mem_cons_self).bind fun first => ?_
      exact (lasts_parameterList fun r hr => ih _ rfl r (List.mem_cons_of_mem q hr)).bind
        fun others => .refl _

theorem lasts_memberTypes {c : Member} (hc : c.Refers s.toModel) :
    Lasts (memberTypes st s.toModel c) (memberTypes st s'.toModel c) := by
  unfold memberTypes
  refine (lasts_typeField hs hfrozen hst _ hc.type).bind fun type => ?_
  refine (lasts_typeField hs hfrozen hst _ hc.returnType).bind fun returnType => ?_
  refine (lasts_typeField hs hfrozen hst _ hc.declaredType).bind fun declaredType => ?_
  refine (lasts_typesField hs hfrozen hst _ hc.extends_).bind fun extended => ?_
  exact (lasts_typesField hs hfrozen hst _ hc.implements).bind fun implemented => .refl _

omit hs hst in
/-- The id of a member that another refers to. -/
theorem id_later {o : Option MemberHandle} (ho : s.MemberIn o) :
    o.map (fun h => (s'.member h).id) = o.map (fun h => (s.member h).id) := by
  cases o with
  | none => rfl
  | some h => exact congrArg some (congrArg Member.id (hfrozen.member h (ho h rfl)))

theorem lasts_ownFields {c : Member} (hc : c.Refers s.toModel) :
    Lasts (ownFields st s.toModel c) (ownFields st s'.toModel c) := by
  have hoverrides := id_later hfrozen hc.overrides
  have hbase := id_later hfrozen hc.base
  unfold ownFields
  dsimp only
  rw [hoverrides, hbase]
  refine (lasts_memberTypes hs hfrozen hst hc).bind fun types => ?_
  cases hps : c.parameters with
  | none => exact .refl _
  | some ps =>
    refine (lasts_parameterList fun p hp => ?_).bind fun _ => .refl _
    exact lasts_parameter hs hfrozen hst (hc.parameters ps hps p hp)

omit hs hst in
theorem lasts_shownMembers (o : Output) {nested nested' : Nested} {cs : List (Option MemberHandle)}
    (hin : ∀ c ∈ cs, s.MemberIn c) (hnested : ∀ h, s.HasMember h → Lasts (nested h) (nested' h)) :
    Lasts (shownMembers s.toModel o nested cs) (shownMembers s'.toModel o nested' cs) := by
  induction cs with
  | nil => exact .refl _
  | cons c cs ih =>
    have hrest := ih fun d hd => hin d (List.mem_cons_of_mem c hd)
    cases c with
    | none => exact .throw _ _
    | some h =>
      have hh : s.HasMember h := hin _ List.mem_cons_self h rfl
      have hsame : s'.member h = s.member h := hfrozen.member h hh
      rw [shownMembers, shownMembers, hsame]
      split
      · exact (hnested h hh).bind fun first => hrest.bind fun others => .refl _
      · exact hrest

omit hs hfrozen hst in
theorem lasts_allMembers {nested nested' : Nested} {cs : List (Option MemberHandle)}
    (hin : ∀ c ∈ cs, s.MemberIn c) (hnested : ∀ h, s.HasMember h → Lasts (nested h) (nested' h)) :
    Lasts (allMembers nested cs) (allMembers nested' cs) := by
  unfold allMembers
  refine .mapM fun c hc => ?_
  cases c with
  | none => exact .throw _ _
  | some h => exact hnested h (hin _ hc h rfl)

omit hs hfrozen hst in
/-- A member that may be missing, and what goes on with its entry. -/
theorem lasts_memberField {nested nested' : Nested} {m : Option MemberHandle}
    (hnested : ∀ h, s.HasMember h → Lasts (nested h) (nested' h)) (key : String)
    {k k' : Entries → Rendering Entries} (hk : ∀ e, Lasts (k e) (k' e)) : s.MemberIn m → Lasts
      (match m with
        | none => pure [] >>= k
        | some h => nested h >>= fun v => pure [(key, v)] >>= k)
      (match m with
        | none => pure [] >>= k'
        | some h => nested' h >>= fun v => pure [(key, v)] >>= k') := by
  intro hm
  cases m with
  | none => exact hk []
  | some h => exact (hnested h (hm h rfl)).bind fun v => hk [(key, v)]

omit hs hst in
theorem lasts_childrenField (o : Output) {nested nested' : Nested}
    {cs : Option (List (Option MemberHandle))}
    (hnested : ∀ h, s.HasMember h → Lasts (nested h) (nested' h))
    {k k' : Entries → Rendering Entries} (hk : ∀ e, Lasts (k e) (k' e)) : s.MembersIn cs → Lasts
      (match cs with
        | none => pure [] >>= k
        | some cs => shownMembers s.toModel o nested cs >>= fun l =>
          pure [("members", Value.list l)] >>= k)
      (match cs with
        | none => pure [] >>= k'
        | some cs => shownMembers s'.toModel o nested' cs >>= fun l =>
          pure [("members", Value.list l)] >>= k') := by
  intro hcs
  cases cs with
  | none => exact hk []
  | some cs => exact (lasts_shownMembers hfrozen o (hcs cs rfl) hnested).bind fun l => hk _

omit hs hst in
/-- The fields that hold other members, given how those are shown. -/
theorem lasts_nestedFields (o : Output) {nested nested' : Nested} {c : Member} (hc : c.Refers s.toModel)
    (hnested : ∀ h, s.HasMember h → Lasts (nested h) (nested' h)) :
    Lasts (nestedFields s.toModel o nested c) (nestedFields s'.toModel o nested' c) := by
  have hin := forall_getD hc.overloads
  have hrest := fun overloads : Entries =>
    lasts_memberField hnested "class_or_interface" (fun merged =>
      lasts_memberField hnested "namespace" (fun spaces =>
        lasts_childrenField hfrozen o hnested (fun children =>
          Lasts.refl (pure (overloads ++ merged ++ spaces ++ children)))
          hc.members) hc.namespace_) hc.classOrInterface
  unfold nestedFields
  dsimp only
  generalize c.overloads.getD [] = l at hin
  cases l with
  | nil => exact hrest []
  | cons d l => exact (lasts_allMembers hin hnested).bind fun overloads => hrest _

/-- **A member keeps its data**, with more fuel and over a later store. -/
theorem lasts_memberWithin (o : Output) {n n' : Nat} (hn : n ≤ n') (path : List MemberHandle)
    {h : MemberHandle} (hh : s.HasMember h) :
    Lasts (memberWithin st s.toModel o n path h) (memberWithin st s'.toModel o n' path h) := by
  induction n generalizing n' path h with
  | zero => exact .throw _ _
  | succ n ih =>
    obtain ⟨k, rfl⟩ : ∃ k, n' = k + 1 := ⟨n' - 1, by omega⟩
    have hsame : s'.member h = s.member h := hfrozen.member h hh
    unfold memberWithin
    dsimp only
    rw [hsame]
    split
    · exact .refl _
    · refine (lasts_ownFields hs hfrozen hst (hs.member h)).bind fun own => ?_
      refine (lasts_nestedFields hfrozen o (hs.member h) fun c hc => ?_).bind fun nested => .refl _
      exact ih (by omega) (h :: path) hc

theorem lasts_member (o : Output) {h : MemberHandle} (hh : s.HasMember h) :
    Lasts (member st s.toModel o h) (member st s'.toModel o h) :=
  lasts_memberWithin hs hfrozen hst o (Nat.add_le_add_right hfrozen.grows.members.size 2) [] hh

/-- **A unit keeps its data.** -/
theorem lasts_unit (o : Output) {u : UnitHandle} (hu : s.HasUnit u) :
    Lasts (unit st s.toModel o (s.unit u)) (unit st s'.toModel o (s'.unit u)) := by
  rw [hfrozen.unit u hu]
  unfold unit
  refine (lasts_shownMembers hfrozen o (fun c hc => ?_) fun h hh => ?_).bind fun members => .refl _
  · obtain ⟨h, hh, rfl⟩ := List.mem_map.1 hc
    exact .some (hs.unit u h hh)
  · exact lasts_member hs hfrozen hst o hh

end Dump

end ApiReference
