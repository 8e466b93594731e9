/-
  The parts of records: what fillings ask for.

  Every part is the record of a symbol or type that the facts declare, or a new record of its own where
  there is none.  Asking for it leaves all other records as they are.

  1. `Requests.Lawful`  -- requests that give the record of what was asked for;
  2. keys               -- the symbols and types that fillings ask for are declared;
  3. what parts refer to;
  4. types, members and pieces;
  5. parameters and type parameters.
-/
import ApiReference.Proofs.Build.Logic
import ApiReference.Proofs.Facts.Aliases
import Mathlib.Data.List.Forall2

namespace ApiReference

/-! ## 1. Requests -/

/-- **Requests that keep to their word**: each is a run, and gives the record of its key, which was
    there before or was filled meanwhile. -/
structure Requests.Lawful (cx : Context) (n : Nat) (r : Requests) : Prop where
  member : ∀ (c : Scope) (s : Store) (key : Option SymbolId), cx.facts.SymbolKey key →
    Runs cx n c s (r.member key) fun h s' =>
      s'.IsMember key h ∧ (s' = s ∨ s.members.size ≤ h.index)
  type : ∀ (c : Scope) (s : Store) (key : Option TypeRef), cx.facts.TypeKey key →
    Runs cx n c s (r.type key) fun h s' => s'.IsType key h

section Requests

variable {cx : Context} {r : Requests} {n : Nat} {c : Scope} {s : Store}

/-- Whoever asks for a member, the records that are there stay as they are. -/
theorem Requests.Lawful.asks_member (hr : r.Lawful cx n) {key : Option SymbolId}
    (hkey : cx.facts.SymbolKey key) : Asks cx n c s (r.member key) fun h s' => s'.IsMember key h :=
  .asks ((hr.member _ s key hkey).mono fun _ _ _ h => h.1)

theorem Requests.Lawful.asks_type (hr : r.Lawful cx n) {key : Option TypeRef}
    (hkey : cx.facts.TypeKey key) : Asks cx n c s (r.type key) fun h s' => s'.IsType key h :=
  .asks (hr.type _ s key hkey)

end Requests

/-! ## 2. Keys -/

namespace Facts

variable {f : Facts}

theorem symbolKey_some {s : SymbolId} (h : s.text ∈ f.symbolIds) : f.SymbolKey (some s) := by
  intro x hx
  cases hx
  exact h

theorem typeKey_known {t : TypeId} (h : t.text ∈ f.typeIds) : f.TypeKey (some (.known t)) := by
  intro x hx
  cases hx
  exact h

theorem typeKey_map {o : Option TypeId} (h : TypeIn f.typeIds o) : f.TypeKey (o.map .known) := by
  intro t ht
  obtain ⟨u, hu, he⟩ := Option.map_eq_some_iff.1 ht
  cases he
  exact h _ hu

theorem typeKey_orError {o : Option TypeId} (h : TypeIn f.typeIds o) :
    f.TypeKey (some (.orError o)) := by
  cases o with
  | none => exact fun t ht => nomatch ht
  | some t => exact typeKey_known (h t rfl)

theorem typeKey_typeOfSymbol (hf : f.Closed) (s : SymbolId) : f.TypeKey (some (f.typeOfSymbol s)) :=
  typeKey_orError (hf.symbol s).type

end Facts

namespace Build

variable {cx : Context}

/-- Choosing a declaration never walks without end. -/
theorem gives_firstDeclaration {hang : Prop} (p : DeclarationFacts → Bool)
    (ds : List (Option DeclarationId)) :
    Gives hang (fun _ => True) (firstDeclaration? cx p ds) := by
  induction ds with
  | nil => trivial
  | cons d ds ih =>
    cases d with
    | none => exact Gives.error (by decide)
    | some d =>
      unfold firstDeclaration?
      split
      · trivial
      · exact ih

theorem gives_declarationsWith {hang : Prop} (p : DeclarationFacts → Bool)
    (ds : List (Option DeclarationId)) :
    Gives hang (fun _ => True) (declarationsWith cx p ds) := by
  unfold declarationsWith
  refine (Gives.mapM (Q := fun _ => True) fun d _ => ?_).bind fun _ _ => Gives.pure trivial
  exact (gives_present d).mono fun _ _ => trivial

theorem gives_implementation {hang : Prop} (ds : List (Option DeclarationId)) :
    Gives hang (fun _ => True) (implementation cx ds) := by
  unfold implementation
  refine (gives_firstDeclaration _ ds).bind fun o _ => ?_
  cases o with
  | some d => exact Gives.pure trivial
  | none =>
    refine (gives_declarationsWith _ ds).bind fun found _ => ?_
    split <;> exact Gives.pure trivial

theorem gives_owner {hang : Prop} (tagName : String) (ps : List Parameter) :
    Gives hang (fun _ => True) (owner? tagName ps) := by
  induction ps with
  | nil => trivial
  | cons p ps ih =>
    unfold owner?
    split
    · split
      · trivial
      · exact ih.bind fun _ _ => Gives.pure trivial
    · exact Gives.error (by decide)

theorem gives_instanceType (hf : cx.facts.Closed) {hang : Prop} (symbol : SymbolId)
    (constructs : List (Option SignatureId)) :
    Gives hang cx.facts.TypeKey (instanceType cx symbol constructs) := by
  unfold instanceType
  split
  · rename_i t ht
    exact Facts.typeKey_known ((hf.symbol symbol).declaredType t ht)
  · exact fun t ht => nomatch ht
  · refine (gives_present _).bind fun sig _ => Gives.pure ?_
    exact Facts.typeKey_orError (hf.signature sig).returnType

end Build

/-! ## 3. What parts refer to -/

namespace Store

variable {s : Store}

theorem IsMember.inside {k : Option SymbolId} {h : MemberHandle} (hh : s.IsMember k h) :
    s.HasMember h := Registry.lt_size_of_find? hh

theorem IsType.inside {k : Option TypeRef} {h : TypeHandle} (hh : s.IsType k h) : s.HasType h :=
  Registry.lt_size_of_find? hh

theorem IsPart.inside {p : Part} {h : TypeHandle} (hh : s.IsPart p h) : s.HasType h := by
  cases p with
  | of t => exact IsType.inside hh
  | missing => exact IsLoose.inside hh
  | aliasOf t a =>
    obtain ⟨_, -, hloose⟩ := hh
    exact hloose.inside

theorem IsTypes.typesIn {ks : List (Option TypeRef)} {hs : List (Option TypeHandle)}
    (h : s.IsTypes ks hs) : ∀ o ∈ hs, s.TypeIn o := by
  refine forall₂_right (fun _ o ho => ?_) h
  obtain ⟨x, rfl, hx⟩ := ho
  exact .some hx.inside

theorem IsMembers.membersIn {ks : List (Option SymbolId)} {hs : List (Option MemberHandle)}
    (h : s.IsMembers ks hs) : s.MembersIn (some hs) := by
  refine .some (forall₂_right (fun _ o ho => ?_) h)
  obtain ⟨x, rfl, hx⟩ := ho
  exact .some hx.inside

theorem IsMembers.registered {ks : List (Option SymbolId)} {hs : List MemberHandle}
    (h : s.IsMembers ks (hs.map some)) : List.Forall₂ s.IsMember ks hs := by
  refine (List.forall₂_map_right_iff.1 h).imp ?_
  rintro k x ⟨y, ⟨⟩, hy⟩
  exact hy

theorem IsMembers.append {ks ks' : List (Option SymbolId)} {hs hs' : List (Option MemberHandle)}
    (h : s.IsMembers ks hs) (h' : s.IsMembers ks' hs') : s.IsMembers (ks ++ ks') (hs ++ hs') :=
  List.rel_append h h'

theorem memberIn_of_rel {o : Option SymbolId} {x : Option MemberHandle}
    (h : Option.Rel (fun a => s.IsMember (some a)) o x) : s.MemberIn x := by
  cases h with
  | none => exact .none
  | some hm => exact .some hm.inside

theorem typeIn_of_rel {o : Option TypeId} {x : Option TypeHandle}
    (h : Option.Rel (fun u => s.IsType (some (.known u))) o x) : s.TypeIn x := by
  cases h with
  | none => exact .none
  | some ht => exact .some ht.inside

theorem IsParameter.refers {f : Facts} {o : Option SymbolId} {p : Parameter}
    (h : s.IsParameter f o p) : p.Refers s.toModel := by
  obtain ⟨a, x, -, hx, rfl⟩ := h
  exact .intro (.some hx.inside) fun ps hps => nomatch hps

theorem IsTypeParameter.refers {f : Facts} {o : Option TypeId} {p : TypeParameter}
    (h : s.IsTypeParameter f o p) : p.Refers s.toModel := by
  obtain ⟨t, constraint, default, -, hc, hd, rfl⟩ := h
  exact ⟨typeIn_of_rel hc, typeIn_of_rel hd⟩

theorem genericsIn_of_rel {f : Facts} {ts : Option (List (Option TypeId))}
    {o : Option (List TypeParameter)} (h : Option.Rel (List.Forall₂ (s.IsTypeParameter f)) ts o) :
    s.GenericsIn o := by
  intro ps hps
  cases h with
  | none => exact nomatch hps
  | some hall =>
    cases hps
    exact forall₂_right (R := s.IsTypeParameter f) (fun _ _ h => h.refers) hall

theorem parametersIn_of_forall₂ {f : Facts} {os : List (Option SymbolId)} {ps : List Parameter}
    (h : List.Forall₂ (s.IsParameter f) os ps) : s.ParametersIn (some ps) := by
  intro qs hqs
  cases hqs
  exact forall₂_right (R := s.IsParameter f) (fun _ _ h => h.refers) h

theorem spansIn_of_forall₂ {pieces : List Piece} {spans : List Span}
    (h : List.Forall₂ s.IsPiece pieces spans) :
    ∀ ss ∈ some spans, ∀ o, Span.type o ∈ ss → s.TypeIn o := by
  intro ss hss o ho
  cases hss
  refine forall₂_right (P := fun x => ∀ o, x = Span.type o → s.TypeIn o) (fun p x hx => ?_) h _ ho o rfl
  rintro o rfl
  match p, o, hx with
  | .type _, some _, hx => exact .some (IsType.inside hx)

/-- A record that is registered for no type is filled, whatever it shows. -/
theorem typeDone_of_loose {cx : Context} {c : Scope} {filled : List RecordHandle} {h : TypeHandle}
    (hl : c.Loose s (.type h)) : s.TypeDone cx filled h := by
  intro k hk
  rw [hl.2.2.1] at hk
  exact nomatch hk

/-- Filling a record that is new leaves those alone that were there before. -/
theorem Framed.besidesType {s₁ s₂ : Store} (hf : s.Framed s₁) {h : TypeHandle}
    (hb : s₁.BesidesType h s₂) (hg : s₁.Grows s₂) (hnew : s.types.size ≤ h.index) : s.Framed s₂ where
  grows := hf.grows.trans hg
  member := fun x hx => (hb.member x (hx.mono hf.grows.extends)).trans (hf.member x hx)
  type := by
    intro x hx
    have hne : x ≠ h := by
      rintro rfl
      exact absurd hx (Nat.not_lt.2 hnew)
    exact (hb.type x (hx.mono hf.grows.extends) hne).trans (hf.type x hx)
  lists := hf.lists.trans hg (hb.lists.le hf.grows.members.size)

theorem Framed.besides {s₁ s₂ : Store} (hf : s.Framed s₁) {h : MemberHandle}
    (hb : s₁.Besides h s₂) (hg : s₁.Grows s₂) (hnew : s.members.size ≤ h.index) : s.Framed s₂ where
  grows := hf.grows.trans hg
  member := by
    intro x hx
    have hne : x ≠ h := by
      rintro rfl
      exact absurd hx (Nat.not_lt.2 hnew)
    exact (hb.member x (hx.mono hf.grows.extends) hne).trans (hf.member x hx)
  type := fun x hx => (hb.type x (hx.mono hf.grows.extends)).trans (hf.type x hx)
  lists := hf.lists.trans hg (hb.lists.le hf.grows.members.size)

theorem Framed.completed {s' : Store} (hf : s.Framed s') (x : RecordHandle) :
    s.Framed (s'.completed x) :=
  ⟨⟨hf.grows.members, hf.grows.types, hf.grows.units⟩, hf.member, hf.type,
    hf.lists.trans ⟨.refl _, .refl _, .refl _⟩ (.of_spared (.completed s' x))⟩

end Store

/-! ## 4. Types, members and pieces -/

namespace Build

variable {cx : Context} {r : Requests} {n : Nat} {c : Scope} {s : Store}
variable (hf : cx.facts.Closed) (hr : r.Lawful cx n)
include hr

theorem asks_typeList {ts : List (Option TypeId)} (hts : TypesIn cx.facts.typeIds ts) :
    Asks cx n c s (typeList r ts) (fun hs s' => s'.IsTypes (typeKeys ts) hs) := by
  refine (Moves.mapM (T := fun t o s => ∃ h, o = some h ∧ s.IsType (t.map .known) h)
    (fun _ _ _ _ ho ⟨h, he, ht⟩ => ⟨h, he, ho.upholds.isType ht⟩) fun t ht s' => ?_).mono
    fun hs s' _ hall => ?_
  · refine (hr.asks_type (Facts.typeKey_map (hts t ht))).bind fun x s₁ _ hx => .pure ?_
    exact ⟨x, rfl, hx⟩
  · exact List.forall₂_map_left_iff.2 hall

theorem asks_types {ts : List (Option TypeId)} (hts : TypesIn cx.facts.typeIds ts) :
    Asks cx n c s (ts.mapM fun t => r.type (t.map .known)) (fun hs s' => ∀ h ∈ hs, s'.HasType h) := by
  refine (Moves.mapM (T := fun _ h s => s.HasType h) (fun _ _ _ _ ho hh => hh.mono ho.extends)
    fun t ht s' => ?_).mono fun hs s' _ hall =>
      forall₂_right (P := s'.HasType) (fun _ _ h => h) hall
  exact (hr.asks_type (Facts.typeKey_map (hts t ht))).mono fun _ _ _ hx => hx.inside

theorem asks_members {ks : List (Option SymbolId)} (hks : ∀ k ∈ ks, cx.facts.SymbolKey k) :
    Asks cx n c s (ks.mapM r.member) (fun hs s' => s'.IsMembers ks (hs.map some)) := by
  refine (Moves.mapM (T := fun k h s => s.IsMember k h) (fun _ _ _ _ ho hh => ho.upholds.isMember hh)
    fun k hk s' => hr.asks_member (hks k hk)).mono fun hs s' _ hall => ?_
  exact List.forall₂_map_right_iff.2 (hall.imp fun k h hh => ⟨h, rfl, hh⟩)

/-- A missing part has an error record of its own. -/
theorem asks_typeOrError {t : Option TypeId} (hin : TypeIn cx.facts.typeIds t) :
    Asks cx n c s (typeOrError r t) (fun x s' => s'.IsPart (.orMissing t) x) := by
  unfold typeOrError
  cases t with
  | some t => exact hr.asks_type (Facts.typeKey_known (hin t rfl))
  | none =>
    refine Runs.bind Asks.newType fun x s₁ _ ⟨hframed, hnew, hsize⟩ => ?_
    refine (Runs.withinType hnew.loose (Runs.becomes rfl hnew.blank rfl fun hc => { hc with })).bind
      fun _ s₂ ho ⟨⟨hbesides, hloose⟩, hcontent⟩ => ?_
    refine (Runs.complete hloose (Store.typeDone_of_loose hloose)).bind fun _ s₃ _ he => .pure ?_
    subst he
    refine ⟨(hframed.besidesType hbesides ho.grows hsize).completed _, ?_⟩
    refine ⟨hloose.1, hloose.2.2.1, List.mem_cons_self, ?_⟩
    show (s₂.type x).built = _
    rw [hcontent]
    rfl

include hf in
theorem asks_memberOf (t : TypeRef) :
    Asks cx n c s (memberOf r (cx.facts.type t))
      (fun o s' => Option.Rel (fun a => s'.IsMember (some a)) (cx.facts.type t).symbol o) := by
  unfold memberOf
  cases hsymbol : (cx.facts.type t).symbol with
  | none => exact .pure .none
  | some symbol =>
    have hkey := Facts.symbolKey_some ((hf.type t).symbol symbol hsymbol)
    exact (hr.asks_member hkey).bind fun x s' _ hx => .pure (.some hx)

theorem asks_foundMember {found : Option SymbolId} (hfound : cx.facts.SymbolKey found) :
    Asks cx n c s (foundMember r found)
      (fun xs s' => s'.IsMembers (found.toList.map some) (xs.map some)) := by
  unfold foundMember
  cases found with
  | none => exact .pure .nil
  | some symbol =>
    refine (hr.asks_member hfound).bind fun x s' _ hx => .pure ?_
    exact .cons ⟨x, rfl, hx⟩ .nil

theorem asks_templateSpans (texts : List String) {ts : List (Option TypeId)}
    (hts : TypesIn cx.facts.typeIds ts) :
    Asks cx n c s (templateSpans r texts ts)
      (fun spans s' => List.Forall₂ s'.IsPiece (Context.pieces texts ts) spans) := by
  induction texts generalizing ts s with
  | nil => exact .pure .nil
  | cons text texts ih =>
    cases ts with
    | nil => exact .pure (.cons rfl .nil)
    | cons t ts =>
      unfold templateSpans Context.pieces
      have hkey := Facts.typeKey_map (hts t List.mem_cons_self)
      refine (hr.asks_type hkey).bind fun x s₁ _ hx => ?_
      refine (ih fun u hu => hts u (List.mem_cons_of_mem t hu)).bind fun spans s₂ ho hspans => ?_
      exact .pure (.cons rfl (.cons (ho.upholds.isType hx) hspans))

/-! ## 5. Parameters -/

theorem asks_optionalType {t : Option TypeId} (ht : TypeIn cx.facts.typeIds t) :
    Asks cx n c s (optionalType r t)
      (fun o s' => Option.Rel (fun u => s'.IsType (some (.known u))) t o) := by
  unfold optionalType
  cases t with
  | none => exact .pure .none
  | some t =>
    exact (hr.asks_type (Facts.typeKey_known (ht t rfl))).bind fun h s' _ hh => .pure (.some hh)

include hf

/-- A parameter of a function or signature. -/
theorem asks_parameter (symbol : Option SymbolId) :
    Asks cx n c s (parameter cx r symbol) (fun p s' => s'.IsParameter cx.facts symbol p) := by
  unfold parameter
  refine Runs.ask (gives_present symbol) fun t _ ht => ?_
  refine Moves.bind (hr.asks_type (Facts.typeKey_typeOfSymbol hf t)) fun type s' _ htype => .pure ?_
  exact ⟨t, type, ht, htype, rfl⟩

theorem asks_parameters (ps : List (Option SymbolId)) :
    Asks cx n c s (ps.mapM (parameter cx r))
      (fun qs s' => List.Forall₂ (s'.IsParameter cx.facts) ps qs) :=
  .mapM (T := fun o p s => s.IsParameter cx.facts o p)
    (fun _ _ _ _ ho hp => ho.upholds.isParameter hp) fun _ _ _ => asks_parameter hf hr _

theorem asks_typeParameter (t : Option TypeId) :
    Asks cx n c s (typeParameter cx r t) (fun p s' => s'.IsTypeParameter cx.facts t p) := by
  unfold typeParameter
  refine Runs.ask (gives_present t) fun u _ hu => ?_
  refine Moves.bind (asks_optionalType hr (hf.type (.known u)).constraint) fun o s₁ _ ho => ?_
  refine Moves.bind (asks_optionalType hr (hf.type (.known u)).default) fun o' s₂ he ho' => .pure ?_
  exact ⟨u, o, o', hu, rel_imp (fun _ _ => he.upholds.isType) ho, ho', rfl⟩

/-- No type parameters at all leave the place empty. -/
theorem asks_typeParameters (ts : List (Option TypeId)) :
    Asks cx n c s (typeParameters cx r ts) (fun o s' =>
      Option.Rel (List.Forall₂ (s'.IsTypeParameter cx.facts)) (if ts.isEmpty then none else some ts)
        o) := by
  unfold typeParameters
  split
  · exact .pure .none
  · rename_i hne
    have hempty : ts.isEmpty = false := by
      cases ts with
      | nil => exact absurd rfl hne
      | cons t ts => rfl
    rw [hempty]
    refine (Moves.mapM (T := fun t p s => s.IsTypeParameter cx.facts t p)
      (fun _ _ _ _ ho hp => ho.upholds.isTypeParameter hp)
      fun t _ s' => asks_typeParameter hf hr t).bind fun ps s' _ hps => .pure ?_
    exact .some hps

end Build

end ApiReference
