/-
  The fillings of functions.

  One declaration documents a function; the other ones are overloads, each a record of its own that is
  complete before the function takes over what the last of them adds.

  1. one signature;
  2. `Store.IsOverload`     -- overloads;
  3. `runs_consolidate`     -- a function with its overloads.
-/
import ApiReference.Proofs.Build.Fields

namespace ApiReference

/-! ## 1. One signature -/

/-- **A function that one declaration documents**, with its signature. -/
structure Store.Described (s : Store) (cx : Context) (c : Scope) (h : MemberHandle) (symbol : SymbolId)
    (d : DeclarationId) : Prop where
  based : ∃ kind, MemberKind.isFunction kind = true ∧ s.Based cx c h symbol (some d) kind
    (cx.facts.declaredDocs kind (some d) (cx.facts.commentOf kind symbol (some d)).docs) id
  signed : s.SignedByType cx.facts s.filled h symbol

theorem MemberKind.inherits_of_isFunction {kind : MemberKind} (h : kind.isFunction = true) :
    kind.inherits = id := by
  refine inherits_of_ne ?_
  rintro rfl
  exact nomatch h

theorem MemberKind.isListing_of_isFunction {kind : MemberKind} (h : kind.isFunction = true) :
    kind.isListing = false := by
  cases kind <;> first | rfl | exact nomatch h

theorem Store.Described.steady {s : Store} {cx : Context} {c : Scope} {h : MemberHandle}
    {symbol : SymbolId} {d : DeclarationId} (hd : s.Described cx c h symbol d) :
    s.Steady cx c h symbol := by
  obtain ⟨kind, hkind, hb⟩ := hd.based
  have hdocumented := hb.documented rfl (MemberKind.inherits_of_isFunction hkind).symm
  exact ⟨hb.kind ▸ MemberKind.isListing_of_isFunction hkind, ⟨{}, hdocumented⟩, hd.signed⟩

theorem Store.Described.onward {s s' : Store} {cx : Context} {c : Scope} {h : MemberHandle}
    {symbol : SymbolId} {d : DeclarationId} (ho : c.Onward s s') (hsame : s'.member h = s.member h)
    (hd : s.Described cx c h symbol d) : s'.Described cx c h symbol d := by
  obtain ⟨kind, hkind, hb⟩ := hd.based
  exact ⟨⟨kind, hkind, hb.onward ho (congrArg Member.core hsame)⟩, hd.signed.onward ho (.of_eq hsame)⟩

namespace Build

theorem functionKind_isFunction (s : SymbolFacts) : (functionKind s).isFunction = true := by
  unfold functionKind
  split
  · rfl
  · split
    · rfl
    · split
      · rfl
      · split <;> rfl

theorem refers_addPart {m : Model} {i : Nat} {sub : Parameter} {ps : List Parameter}
    (hps : ∀ p ∈ ps, p.Refers m) (hsub : sub.Refers m) : ∀ p ∈ addPart i sub ps, p.Refers m := by
  intro p hp
  unfold addPart at hp
  obtain ⟨j, hj, rfl⟩ := List.getElem_of_mem hp
  have hj' : j < ps.length := by rwa [List.length_modify] at hj
  have hq := hps ps[j] (List.getElem_mem hj')
  rw [List.getElem_modify]
  split
  · exact hq.addSub hsub
  · exact hq

variable {cx : Context} {r : Requests} {n : Nat} {c : Scope} {s : Store} {h : MemberHandle}
variable (hf : cx.facts.Closed) (hr : r.Lawful cx n) (hm : c.member = some h)
include hf hr hm

omit hf in
/-- Parts of parameters go to parameters that are there. -/
theorem keeps_subParameters {tags : List ParamTag}
    (htags : ∀ p ∈ tags, TypeIn cx.facts.typeIds p.type) :
    Keeps h cx n c s (subParameters r h tags) (fun _ _ => True) := by
  induction tags generalizing s with
  | nil => exact .pure trivial
  | cons tag tags ih =>
    have hrest := fun s : Store => ih (s := s) fun p hp => htags p (List.mem_cons_of_mem tag hp)
    unfold subParameters
    refine Runs.branch (fun _ => ?_) fun _ => hrest s
    refine Runs.readMember (Runs.ask (gives_owner tag.name _) fun o _ _ => ?_)
    cases o with
    | none => exact hrest s
    | some i =>
      refine Moves.bind (Asks.keeps hm (asks_optionalType hr (htags tag List.mem_cons_self)))
        fun type s₁ _ htype => ?_
      refine Moves.bind (Keeps.modifies hm (fun _ => ⟨rfl, rfl, rfl⟩) fun _ hc =>
        { hc with parameters := ?_ }) fun _ s₂ _ _ => hrest s₂
      intro ps hps
      obtain ⟨qs, hqs, rfl⟩ := Option.map_eq_some_iff.1 hps
      refine refers_addPart (hc.parameters qs hqs) ?_
      exact .intro (Store.typeIn_of_rel htype) fun ps hps => nomatch hps

omit hf hr in
/-- What a declaration says about its result is the function's own. -/
theorem runs_describeResult {symbol : SymbolId} {d : DeclarationId} {kind : MemberKind}
    (hkind : kind.isFunction = true) {own : Docs}
    (hb : s.Based cx c h symbol (some d) kind own id) :
    Runs cx n c s (modifyMember h (describeResult (cx.facts.declaration d))) (fun _ s' =>
      s'.Based cx c h symbol (some d) kind (cx.facts.declaredDocs kind (some d) own) id) := by
  refine runs_declare (f := fun docs => (describeResult (cx.facts.declaration d) { docs }).docs)
    (g := id) hm (fun inherited => ?_) rfl hb
  have hown : cx.facts.declaredDocs kind (some d) own =
      { own with returnSummary := (cx.facts.declaration d).returns.toOption <|> own.returnSummary } :=
    if_pos hkind
  rw [hown]
  unfold describeResult
  cases (cx.facts.declaration d).returns <;> simp [Docs.backfill, Value.toOption]

omit hm in
/-- **A function that is assigned as a value** takes the signature that the record of its type has by
    then. -/
theorem runs_fillAssigned {symbol : SymbolId} (hb : c.Begun s h symbol) {d : DeclarationId}
    (hplain : cx.facts.commentOf .function symbol (some d) = (cx.facts.symbol symbol).comment) :
    Runs cx n c s (fillAssigned cx r symbol d h) (fun _ s' => s'.Described cx c h symbol d) := by
  have hm := hb.own
  unfold fillAssigned
  refine (runs_fillBase hf hr hb hplain.symm).bind fun _ s₁ _ hb₁ => ?_
  refine Runs.bind (Asks.keeps hm (hr.asks_type (Facts.typeKey_typeOfSymbol hf symbol)))
    fun t s₂ ho₂ ⟨hsame₂, ht⟩ => .readType (.sound fun hs hc₂ => ?_)
  have hsource := hs.type t
  refine Runs.bind (Keeps.modified hm (fun m => ⟨?_, ?_, ?_⟩) fun m hc => ?_)
    fun _ s₃ ho₃ ⟨hsame₃, he₃⟩ => .sound fun _ hc₃ => ?_
  -- the signature of the type is taken over, or a plain one is set: no other field changes
  · split <;> rfl
  · split <;> rfl
  · split <;> rfl
  · split
    · exact { hc with
        typeParameters := hsource.typeParameters
        parameters := hsource.parameters
        returnType := hsource.returnType }
    · refine { hc with parameters := fun ps hps p hp => ?_, returnType := .some ht.inside }
      cases hps
      exact absurd hp List.not_mem_nil
  have hb₃ := (hb₁.onward ho₂ hsame₂).onward ho₃ hsame₃
  have hsigned₃ : s₃.SignedByType cx.facts s₃.filled h symbol := by
    refine fun _ d' _ _ => ⟨t, ho₃.upholds.isType ht, fun _ => ?_⟩
    have htype : s₃.type t = s₂.type t := by
      rw [he₃]
      rfl
    rw [htype, he₃, Store.member_setMember_self (hc₂.member h hm).1]
    unfold Member.Signed
    split
    · rfl
    · exact ⟨rfl, rfl⟩
  -- the result is described beside the signature
  have hresult : Runs cx n c s₃ (modifyMember h (describeResult (cx.facts.declaration d))) fun _ s₄ =>
      s₃.SameSignature h s₄ := by
    refine Runs.mono (Runs.modifyMember hm (fun _ => rfl) (fun _ => rfl) (fun _ => rfl) fun _ hrefers =>
      { hrefers with })
      fun _ s₄ _ he₄ => ?_
    have hown : s₄.member h = describeResult (cx.facts.declaration d) (s₃.member h) := by
      rw [he₄, Store.member_setMember_self (hc₃.member h hm).1]
    constructor <;> rw [hown] <;> rfl
  refine ((runs_describeResult hm rfl hb₃).both hresult).mono fun _ s₄ ho₄ ⟨hb₄, hkept⟩ => ?_
  refine ⟨⟨.function, rfl, ?_⟩, hsigned₃.onward ho₄ hkept⟩
  rw [hplain]
  exact hb₄

omit hm in
theorem runs_fillDeclared {symbol : SymbolId} (hb : c.Begun s h symbol) {d : DeclarationId}
    {signature : SignatureId} (hparameters : (cx.facts.declaration d).hasParameters = true)
    (hsignature : (cx.facts.declaration d).signature = some signature) :
    Runs cx n c s (fillDeclared cx r symbol d signature h)
      (fun _ s' => s'.Described cx c h symbol d) := by
  have hm := hb.own
  have hkind := functionKind_isFunction (cx.facts.symbol symbol)
  have hcomment : cx.facts.commentOf (functionKind (cx.facts.symbol symbol)) symbol (some d) =
      (cx.facts.signature signature).comment := by
    unfold Facts.commentOf
    dsimp only [Option.map_some]
    rw [if_pos hkind, hparameters, hsignature]
  unfold fillDeclared
  refine (runs_fillBase hf hr hb hcomment.symm).bind fun _ s₁ _ hb₁ => ?_
  refine Runs.bind (Keeps.based (Keeps.marks hm (fun ms => (ms.insertIf _ .async).insertIf _ .generator)
    fun ms => ?_) hb₁) fun _ s₂ _ hb₂ => ?_
  · rw [Modifiers.placing_insertIf _ rfl, Modifiers.placing_insertIf _ rfl]
  refine Runs.bind (Asks.keeps hm (asks_typeParameters hf hr _))
    fun generics s₃ ho₃ ⟨hsame₃, hgenerics⟩ => ?_
  refine Runs.bind (Keeps.based (Keeps.modifies hm (fun _ => ⟨rfl, rfl, rfl⟩) fun _ hc =>
    { hc with typeParameters := Store.genericsIn_of_rel hgenerics }) (hb₂.onward ho₃ hsame₃))
    fun _ s₄ _ hb₄ => ?_
  refine Runs.bind (Asks.keeps hm (asks_parameters hf hr _)) fun ps s₅ ho₅ ⟨hsame₅, hps⟩ => ?_
  refine Runs.bind (Keeps.based (Keeps.modifies hm (fun _ => ⟨rfl, rfl, rfl⟩) fun _ hc =>
    { hc with parameters := Store.parametersIn_of_forall₂ hps }) (hb₄.onward ho₅ hsame₅))
    fun _ s₆ _ hb₆ => ?_
  have hkey := Facts.typeKey_orError (hf.signature signature).returnType
  refine Runs.bind (Asks.keeps hm (hr.asks_type hkey)) fun result s₇ ho₇ ⟨hsame₇, hresult⟩ => ?_
  refine Runs.bind (Keeps.based (Keeps.modifies hm (fun _ => ⟨rfl, rfl, rfl⟩) fun _ hc =>
    { hc with returnType := .some hresult.inside }) (hb₆.onward ho₇ hsame₇)) fun _ s₈ _ hb₈ => ?_
  refine (runs_describeResult hm hkind hb₈).bind fun _ s₉ _ hb₉ => ?_
  refine Runs.mono (Keeps.based (keeps_subParameters hr hm (hf.declaration d).paramTags) hb₉)
    fun _ s' _ hb' => ⟨⟨_, hkind, ?_⟩, fun _ d' hd' hassigned => ?_⟩
  · rw [hcomment]
    exact hb'
  -- a declaration with parameters and a signature is not one that is assigned
  · cases hd'.symm.trans hb'.declaration
    rcases hassigned with hnone | hnone
    · exact absurd (hnone.symm.trans hparameters) Bool.false_ne_true
    · cases hnone.symm.trans hsignature

omit hm in
/-- **One function record from one declaration.** -/
theorem runs_fillSignature {symbol : SymbolId} (hb : c.Begun s h symbol) (d : DeclarationId) :
    Runs cx n c s (fillSignature cx r symbol d h) (fun _ s' => s'.Described cx c h symbol d) := by
  unfold fillSignature
  dsimp only
  split
  · rename_i signature hparameters hsignature
    exact runs_fillDeclared hf hr hb hparameters hsignature
  · rename_i hnot
    refine runs_fillAssigned hf hr hb ?_
    unfold Facts.commentOf
    dsimp only [Option.map_some]
    rw [if_pos (show MemberKind.function.isFunction = true from rfl)]
    split
    · exact (hnot _ ‹_› ‹_›).elim
    · rfl

end Build

/-! ## 2. Overloads -/

/-- **An overload of a symbol**: a record of its own that is filled. -/
structure Store.IsOverload (s : Store) (symbol : SymbolId) (o : MemberHandle) : Prop where
  filled : .member o ∈ s.filled
  original : s.Original o
  key : s.members.keyAt o.index = none
  raw : (s.member o).raw = some symbol

theorem Store.IsOverload.onward {c : Scope} {s s' : Store} (ho : c.Onward s s') {symbol : SymbolId}
    {o : MemberHandle} (h : s.IsOverload symbol o) : s'.IsOverload symbol o where
  filled := ho.upholds.mem_filled h.filled
  original := ho.upholds.original o h.filled h.original
  key := (ho.grows.members.keyAt _ (ho.sound.filledMembers o h.filled)).trans h.key
  raw := by rw [ho.upholds.member o h.filled h.original]; exact h.raw

/-- **An overload made from a declaration**: it is what the filling from that declaration made of a blank
    record. -/
structure Store.MadeFrom (s : Store) (cx : Context) (r : Requests) (symbol : SymbolId) (d : DeclarationId)
    (o : MemberHandle) : Prop extends s.IsOverload symbol o where
  made : ∃ t t' : Store, t.member o = {} ∧
    (Build.fillSignature cx r symbol d o).run t = (.ok ⟨⟩, t') ∧ s.member o = t'.member o

theorem Store.MadeFrom.onward {c : Scope} {s s' : Store} (ho : c.Onward s s') {cx : Context} {r : Requests}
    {symbol : SymbolId} {d : DeclarationId} {o : MemberHandle} (h : s.MadeFrom cx r symbol d o) :
    s'.MadeFrom cx r symbol d o := by
  obtain ⟨t, t', hblank, hrun, hsame⟩ := h.made
  refine { h.toIsOverload.onward ho with made := ⟨t, t', hblank, hrun, ?_⟩ }
  rw [ho.upholds.member o h.filled h.original]
  exact hsame

/-- It stays so when another member is written. -/
theorem Scope.NewMember.setMember {c : Scope} {s : Store} {o h : MemberHandle} (hnew : c.NewMember s o)
    (hne : o ≠ h) {m : Member} : c.NewMember (s.setMember h m) o where
  loose := hnew.loose.keyed (Store.grows_setMember ..) hnew.loose.2.2.2
  blank := (Store.member_setMember_ne hne).trans hnew.blank
  last := hnew.last.trans (Registry.size_modify ..).symm
  original := hnew.original

/-- A new member is about to be filled, in a scope of its own. -/
theorem Scope.NewMember.begun {c : Scope} {s : Store} {o : MemberHandle} (h : c.NewMember s o)
    (symbol : SymbolId) : (onlyMember s o).Begun s o symbol where
  own := rfl
  blank := h.blank
  last := h.last
  key := by
    intro k hk
    rw [h.loose.2.2.1] at hk
    exact nomatch hk

namespace Build

variable {cx : Context} {r : Requests} {n : Nat} {c : Scope} {s : Store} {h : MemberHandle}
variable (hf : cx.facts.Closed) (hr : r.Lawful cx n) (hm : c.member = some h)

/-- The declarations that become overloads: those with parameters, without the canonical one. -/
def overloading (cx : Context) (canonical : DeclarationId) (ds : List DeclarationId) : List DeclarationId :=
  ds.filter fun d => d ≠ canonical && (cx.facts.declaration d).hasParameters

theorem overloading_cons_of_skipped {canonical d : DeclarationId} {ds : List DeclarationId}
    (hskip : (d = canonical || !(cx.facts.declaration d).hasParameters) = true) :
    overloading cx canonical (d :: ds) = overloading cx canonical ds :=
  List.filter_cons_of_neg (by simpa [or_iff_not_imp_left] using hskip)

theorem overloading_cons {canonical d : DeclarationId} {ds : List DeclarationId}
    (hmake : ¬ (d = canonical || !(cx.facts.declaration d).hasParameters) = true) :
    overloading cx canonical (d :: ds) = d :: overloading cx canonical ds :=
  List.filter_cons_of_pos (by simpa using hmake)

include hf hr hm in
/-- **Overloads are new records of their own**, made one after the other from these declarations. -/
theorem asks_overloads (symbol : SymbolId) (canonical : DeclarationId) (ds : List DeclarationId) :
    Asks cx n c s (overloads cx r symbol canonical ds) (fun os s' =>
      List.Forall₂ (s'.MadeFrom cx r symbol) (overloading cx canonical ds) os ∧
      (∀ o ∈ os, s.members.size ≤ o.index) ∧ os.Pairwise fun a b => a.index < b.index) := by
  induction ds generalizing s with
  | nil => exact .pure ⟨.nil, fun o ho => absurd ho List.not_mem_nil, .nil⟩
  | cons d ds ih =>
    unfold overloads
    refine Runs.branch (fun hskip => ?_) fun hmake => ?_
    · rw [overloading_cons_of_skipped hskip]
      exact ih
    rw [overloading_cons hmake]
    refine Runs.bind Asks.newMember fun o s₁ ho₁ ⟨hframed, hnew, hsize⟩ => .sound fun _ hc => ?_
    -- the new record is filled in a scope of its own, and not written to afterwards
    refine (Runs.withinMember (hc.depth hm) hnew.loose
      (runs_fillSignature hf hr (hnew.begun symbol) d).ran).bind
      fun _ s₂ ho₂ ⟨⟨hbesides, hloose⟩, hrun, hdescribed⟩ => ?_
    refine (Runs.complete hloose hdescribed.steady.finished.done).bind fun _ s₃ _ he => ?_
    have hmade : s₃.MadeFrom cx r symbol d o := by
      obtain ⟨kind, -, hbased⟩ := hdescribed.based
      rw [he]
      exact ⟨⟨List.mem_cons_self, ho₂.original hnew.loose.1 hnew.original, hloose.2.2.1, hbased.raw⟩,
        s₁, s₂, hnew.blank, hrun, rfl⟩
    have hthird : s.Framed s₃ := by
      rw [he]
      exact (hframed.besides hbesides ho₂.grows hsize).completed _
    have hin : o.index < s₃.members.size := by
      rw [he]
      exact hloose.1
    refine Runs.bind ih fun os s₄ ho₄ ⟨hrest, hos, hlater, hordered⟩ => .pure ⟨?_, ?_, ?_, ?_⟩
    · exact IsTrans.trans _ _ _ hthird hrest
    · exact .cons (hmade.onward ho₄) hos
    · refine List.forall_mem_cons.2 ⟨hsize, fun x hx => ?_⟩
      exact Nat.le_trans hthird.grows.members.size (hlater x hx)
    · exact List.pairwise_cons.2 ⟨fun x hx => Nat.lt_of_lt_of_le hin (hlater x hx), hordered⟩

end Build

/-! ## 3. Functions with overloads -/

/-- **A function that took over what an overload adds** is filled. -/
theorem Store.Described.attached {cx : Context} {c : Scope} {s s' : Store} {h o : MemberHandle}
    {symbol : SymbolId} {d : DeclarationId} (hd : s.Described cx c h symbol d) (ho : c.Onward s s')
    (hover : s.IsOverload symbol o) (hsignature : (s'.member h).signature = (s.member h).signature)
    {listed : Option (List (Option MemberHandle))}
    (hlisted : ∀ os, listed = some os → os.getLast? = some (some o))
    (hcore : (s'.member h).core = { (s.member h).core with
      docs := (s.member h).docs.backfill (s.member o).docs, overloads := listed }) :
    s'.Steady cx c h symbol := by
  obtain ⟨kind, hkind, hb⟩ := hd.based
  have hfields := Member.fields_of_core_eq hcore
  have hraw : (s'.member h).raw = some symbol := hfields.raw.trans hb.raw
  have hkind' : (s'.member h).kind = kind := hfields.kind.trans hb.kind
  have hdeclaration : (s'.member h).declaration = some d := hfields.declaration.trans hb.declaration
  have hid : (s'.member h).id = (s.member h).id := hfields.id
  have hoverrides : (s'.member h).overrides = (s.member h).overrides := hfields.overrides
  have hoverloads : (s'.member h).overloads = listed := hfields.overloads
  have hdocs : (s'.member h).docs = (s.member h).docs.backfill (s.member o).docs := hfields.docs
  obtain ⟨inherited, hsame, hinherits⟩ := hb.docs
  rw [Docs.backfill_empty] at hsame
  have hown : cx.facts.ownDocs (s'.member h) =
      cx.facts.declaredDocs kind (some d) (cx.facts.commentOf kind symbol (some d)).docs := by
    unfold Facts.ownDocs
    rw [hraw, hkind', hdeclaration]
  have hoverloaded : s.Overloaded s.filled (s'.member h) (s.member o).docs := by
    refine .inr ⟨o, hover.filled, hover.original, hover.key, ?_, fun os hos => ?_, rfl⟩
    · rw [hover.raw, hraw]
    · exact hlisted os (hoverloads.symm.trans hos)
  have hkept : s.SameSignature h s' :=
    ⟨hkind'.trans hb.kind.symm, hdeclaration.trans hb.declaration.symm, hsignature⟩
  refine ⟨hkind' ▸ MemberKind.isListing_of_isFunction hkind, ⟨(s.member o).docs, hraw, hid.trans hb.id,
    ?_, fun hcandidates => ?_, ⟨inherited, ?_, ?_⟩, ?_⟩, hd.signed.onward ho hkept⟩
  · rw [hdeclaration, ← hb.declaration]
    exact hb.named
  · rw [hoverrides]
    exact ho.upholds.linked ho.settled hcandidates (hb.link (ho.upholds.originals_of hcandidates))
  · rw [hdocs, hsame, hown]
  · rw [hoverrides, hkind', MemberKind.inherits_of_isFunction hkind]
    exact hinherits.onward ho
  · exact (ho.upholds.overloaded ho.sound.filledMembers (List.Subset.refl _) hoverloaded).mono
      ho.upholds.filled.subset rfl

namespace Build

variable {cx : Context} {r : Requests} {n : Nat} {c : Scope} {s : Store} {h : MemberHandle}
variable (hf : cx.facts.Closed) (hr : r.Lawful cx n) (hm : c.member = some h)

/-- **What overloads add to a function**: it takes over what the last of them has, and lists them if they
    are at least two. -/
def withOverloads (s : Store) (os : List MemberHandle) (m : Member) : Member :=
  { m with
    docs := match os.getLast? with
      | none => m.docs
      | some last => m.docs.backfill (s.member last).docs
    overloads := if 2 ≤ os.length then some (os.map some) else m.overloads }

include hm in
theorem runs_withOverloads {os : List MemberHandle} (hos : ∀ o ∈ os, s.HasMember o) :
    Runs cx n c s (attachOverloads h os) (fun _ s' => s'.member h = withOverloads s os (s.member h)) := by
  unfold attachOverloads withOverloads
  cases hlast : os.getLast? with
  | none =>
    cases List.getLast?_eq_none_iff.1 hlast
    exact .pure rfl
  | some last =>
    refine .readMember (.sound fun _ hc => ?_)
    refine Runs.bind (Runs.modifyMember hm (fun _ => rfl) (fun _ => rfl) (fun _ => rfl) fun _ hrefers =>
      { hrefers with }) fun _ s₁ ho₁ he₁ => ?_
    have hown₁ : s₁.member h =
        { s.member h with docs := (s.member h).docs.backfill (s.member last).docs } := by
      rw [he₁, Store.member_setMember_self (hc.member h hm).1]
    refine .branch (fun hmany => .sound fun _ hc₁ => ?_) fun hfew => .pure ?_
    · refine Runs.mono (Runs.modifyMember hm (fun _ => rfl) (fun _ => rfl) (fun _ => rfl) fun _ hrefers =>
        { hrefers with overloads := .of_handles fun o ho => (hos o ho).mono ho₁.extends }) fun _ s₂ _ he₂ => ?_
      rw [he₂, Store.member_setMember_self (hc₁.member h hm).1, hown₁, if_pos hmany]
    · rw [hown₁, if_neg hfew]

include hm in
theorem runs_attachOverloads {symbol : SymbolId} {d : DeclarationId}
    (hd : s.Described cx c h symbol d) {os : List MemberHandle}
    (hos : ∀ o ∈ os, s.IsOverload symbol o) :
    Runs cx n c s (attachOverloads h os) (fun _ s' => s'.Steady cx c h symbol) := by
  refine .sound fun hs _ => ?_
  have hin : ∀ o ∈ os, s.HasMember o := fun o ho => hs.filledMembers o (hos o ho).filled
  refine (runs_withOverloads hm hin).mono fun _ s' ho hown => ?_
  obtain ⟨_, _, hb⟩ := hd.based
  have hsignature : (s'.member h).signature = (s.member h).signature := by
    rw [hown]
    rfl
  unfold withOverloads at hown
  cases hlast : os.getLast? with
  | none =>
    cases List.getLast?_eq_none_iff.1 hlast
    exact (hd.onward ho hown).steady
  | some last =>
    rw [hlast, hb.alone] at hown
    have hcore : (s'.member h).core = { (s.member h).core with
        docs := (s.member h).docs.backfill (s.member last).docs
        overloads := if 2 ≤ os.length then some (os.map some) else none } := congrArg Member.core hown
    refine hd.attached ho (hos last (List.mem_of_getLast? hlast)) hsignature (fun os' hos' => ?_) hcore
    obtain ⟨-, hos'⟩ := Option.ite_none_right_eq_some.1 hos'
    cases hos'
    rw [List.getLast?_map, hlast]
    rfl

include hf hr in
/-- **A function with its overloads.** -/
theorem runs_consolidate {symbol : SymbolId} (hb : c.Begun s h symbol)
    (hvalue : cx.facts.valueDeclaration symbol ≠ none) (declarations : List DeclarationId) :
    Runs cx n c s (consolidate cx r symbol declarations h)
      (fun _ s' => s'.Steady cx c h symbol) := by
  have hm := hb.own
  unfold consolidate
  dsimp only
  split
  · rename_i hnone
    split at hnone
    · exact absurd (Option.toList_eq_nil_iff.1 hnone) hvalue
    · rename_i hsome
      rw [hnone] at hsome
      exact absurd rfl hsome
  · rename_i first rest _
    refine (runs_fillSignature hf hr hb _).bind fun _ s₁ _ hd => ?_
    refine .branch (fun _ => .pure hd.steady) fun _ => ?_
    refine .sound fun _ hc => ?_
    refine Runs.bind (asks_overloads hf hr hm symbol _ _) fun os s₂ ho₂ ⟨hframed, hos, _⟩ => ?_
    refine runs_attachOverloads hm (hd.onward ho₂ (hframed.member h (hc.member h hm).1)) ?_
    exact forall₂_right (fun _ _ hmade => hmade.toIsOverload) hos

end Build

end ApiReference
