/-
  What the fillings of members share, part by part.

  A filling begins with the common fields, which link and document the member; what follows adds fields
  beside these, and for some kinds what the declaration says about a value or a result.

  1. `Keeps`            -- builds that keep the link and the documentation of a member;
  2. `Store.Based`      -- a member with its common fields, and what later stores keep of it;
  3. the common fields;
  4. what a declaration adds.
-/
import ApiReference.Proofs.Build.Parts

namespace ApiReference

/-! ## 1. Fields beside the common ones -/

/-- **A member changed beside its link and its documentation**, its place and its list. -/
structure Member.Beside (m' m : Member) : Prop where
  core : m'.core = m.core
  standing : m'.standing = m.standing
  members : m'.members = m.members

/-- The link is part of the core. -/
theorem Member.Beside.overrides {m' m : Member} (h : m'.Beside m) : m'.overrides = m.overrides :=
  (fields_of_core h.core).overrides

/-- The link and the documentation of a member are as they were. -/
def Store.SameCore (h : MemberHandle) (s s' : Store) : Prop := (s'.member h).core = (s.member h).core

instance (h : MemberHandle) : IsPreorder Store (Store.SameCore h) where
  refl _ := rfl
  trans _ _ _ hs hs' := Eq.trans hs' hs

/-- **A build that keeps the link and the documentation of a member.** -/
abbrev Keeps {α : Type} (h : MemberHandle) := @Moves α (Store.SameCore h)

section Keeps

variable {cx : Context} {n : Nat} {c : Scope} {s : Store} {α : Type} {x : Build α}
variable {P : α → Store → Prop} {h : MemberHandle} (hm : c.member = some h)
include hm

/-- What is asked for leaves the member that is filled alone. -/
theorem Asks.keeps (hx : Asks cx n c s x P) : Keeps h cx n c s x P := by
  refine Runs.sound fun _ hc => Runs.mono hx fun a s' _ hp => ⟨?_, hp.2⟩
  unfold Store.SameCore
  rw [hp.1.member h (hc.member h hm).1]

/-- A field written beside the common ones; what is written may depend on the store. -/
theorem Keeps.writes {f : Store → Member → Member}
    (hf : s.Sound → (s.member h).Refers s.toModel → (f s (s.member h)).Refers s.toModel)
    (hlists : c.MayList s h (f s (s.member h)))
    (hcore : ∀ m, (f s m).core = m.core) (hstanding : ∀ m, (f s m).standing = m.standing) :
    Keeps h cx n c s (modify fun s => { s with members := s.members.modify h.index (f s) })
      (fun _ s' => s' = s.setMember h (f s (s.member h))) := by
  have hlinks : s.MayLink h (f s (s.member h)) :=
    Store.mayLink_of_overrides (Member.fields_of_core (hcore _)).overrides
  refine Runs.sound fun _ hc => Runs.mono (Runs.writeMember hm hf (.inl (hstanding _)) hlists hlinks)
    fun _ s' _ he => ⟨?_, he⟩
  unfold Store.SameCore
  rw [he, Store.member_setMember_self (hc.member h hm).1]
  exact hcore _

/-- A field written beside the common ones, whatever the store. -/
theorem Keeps.modified {f : Member → Member} (hbeside : ∀ m, (f m).Beside m)
    (hf : ∀ m : Member, m.Refers s.toModel → (f m).Refers s.toModel) :
    Keeps h cx n c s (Build.modifyMember h f) (fun _ s' => s' = s.setMember h (f (s.member h))) :=
  Keeps.writes (f := fun _ => f) hm (fun _ => hf _) (Scope.mayList_of_members (hbeside _).members)
    (fun m => (hbeside m).core) fun m => (hbeside m).standing

theorem Keeps.modifies {f : Member → Member} (hbeside : ∀ m, (f m).Beside m)
    (hf : ∀ m : Member, m.Refers s.toModel → (f m).Refers s.toModel) :
    Keeps h cx n c s (Build.modifyMember h f) (fun _ _ => True) :=
  Moves.mono (Keeps.modified hm hbeside hf) fun _ _ _ _ => trivial

/-- Modifiers added that place no member. -/
theorem Keeps.marks (f : Modifiers → Modifiers) (hplacing : ∀ ms, (f ms).placing = ms.placing) :
    Keeps h cx n c s (Build.modifyMember h fun m => { m with modifiers := f m.modifiers })
      (fun _ _ => True) :=
  Keeps.modifies hm (fun _ => ⟨rfl, Member.standing_marked hplacing _, rfl⟩) fun _ hm => { hm with }

end Keeps

/-! ## 2. Members with their common fields -/

namespace Store

variable {cx : Context} {c : Scope} {s s' : Store} {h : MemberHandle} {symbol : SymbolId}

/-- A registered member that was there is filled later only if it was filled. -/
theorem filled_of_registered (ho : c.Onward s s') {k : Option SymbolId} (hk : s.IsMember k h)
    (hin : .member h ∈ s'.filled) : .member h ∈ s.filled := by
  refine ho.filled_before (fun hpast => ?_) hin
  rcases hpast with ⟨-, hkey⟩ | hle
  · rw [Registry.keyAt_of_find? hk] at hkey
    exact nomatch hkey
  · exact absurd hk.inside (Nat.not_lt.2 hle)

/-- So is a registered type record. -/
theorem filled_of_registeredType (ho : c.Onward s s') {k : Option TypeRef} {t : TypeHandle}
    (hk : s.IsType k t) (hin : .type t ∈ s'.filled) : .type t ∈ s.filled := by
  refine ho.filled_before (fun hpast => ?_) hin
  rcases hpast with ⟨-, hkey⟩ | hle
  · rw [Registry.keyAt_of_find? hk] at hkey
    exact nomatch hkey
  · exact absurd hk.inside (Nat.not_lt.2 hle)

/-- The kind, the declaration and the signature of a member are as they were. -/
structure SameSignature (h : MemberHandle) (s s' : Store) : Prop where
  kind : (s'.member h).kind = (s.member h).kind
  declaration : (s'.member h).declaration = (s.member h).declaration
  signature : (s'.member h).signature = (s.member h).signature

theorem SameSignature.of_eq (hsame : s'.member h = s.member h) : s.SameSignature h s' :=
  ⟨congrArg Member.kind hsame, congrArg Member.declaration hsame, congrArg Member.signature hsame⟩

theorem SameSignature.of_core (hcore : s.SameCore h s')
    (hsignature : (s'.member h).signature = (s.member h).signature) : s.SameSignature h s' where
  kind := (Member.fields_of_core hcore).kind
  declaration := (Member.fields_of_core hcore).declaration
  signature := hsignature

/-- **A function keeps the signature of its type**: a type record that is filled by then is not written
    any more, and one that is not will not be filled before the function. -/
theorem SignedByType.onward (ho : c.Onward s s') (hsame : s.SameSignature h s') {f : Facts}
    (hs : s.SignedByType f s.filled h symbol) : s'.SignedByType f s'.filled h symbol := by
  intro hfunction d hd hassigned
  rw [hsame.kind] at hfunction
  rw [hsame.declaration] at hd
  obtain ⟨t, ht, hsigned⟩ := hs hfunction d hd hassigned
  refine ⟨t, ho.upholds.isType ht, fun hin => ?_⟩
  have hbefore := filled_of_registeredType ho ht hin
  exact ((hsigned hbefore).onMember hsame.signature).congr (ho.upholds.type t hbefore)

theorem Inherits.onward (ho : c.Onward s s') {take : Docs → Docs} {link : Option MemberHandle}
    {docs : Docs} (h : s.Inherits s.filled take link docs) : s'.Inherits s'.filled take link docs := by
  have h' := ho.upholds.inherits (List.Subset.refl _) h
  cases link with
  | none => exact h'
  | some l =>
    obtain ⟨⟨a, ha⟩, -⟩ := h
    exact ⟨h'.1, fun hl => h'.2 (filled_of_registered ho ha hl)⟩

theorem Inherits.map {filled : List RecordHandle} {take lose : Docs → Docs}
    {link : Option MemberHandle} {docs : Docs} (hlose : lose {} = {})
    (h : s.Inherits filled take link docs) :
    s.Inherits filled (fun d => lose (take d)) link (lose docs) := by
  cases link with
  | none => exact (congrArg lose h).trans hlose
  | some l => exact ⟨h.1, fun hl horiginal => congrArg lose (h.2 hl horiginal)⟩

theorem Overloaded.mono {filled filled' : List RecordHandle} (hfilled : filled ⊆ filled') {m m' : Member}
    (hcore : m'.core = m.core) {docs : Docs} (h : s.Overloaded filled m docs) :
    s.Overloaded filled' m' docs := by
  have hfields := Member.fields_of_core hcore
  refine h.imp id ?_
  rintro ⟨o, ho, horiginal, hkey, hsame, hlast, hdocs⟩
  exact ⟨o, hfilled ho, horiginal, hkey, hfields.raw ▸ hsame, hfields.overloads ▸ hlast, hdocs⟩

/-- **What is linked and documented stays so.** -/
theorem Documented.onward (ho : c.Onward s s') (hcore : s.SameCore h s') {own overloaded : Docs}
    {take : Docs → Docs} (hd : s.Documented cx (c.settled s) s.filled h symbol own take overloaded) :
    s'.Documented cx (c.settled s') s'.filled h symbol own take overloaded := by
  have hfields := Member.fields_of_core hcore
  obtain ⟨inherited, hsame, hinherits⟩ := hd.docs
  refine ⟨hfields.raw.trans hd.raw, hfields.id.trans hd.id, hfields.declaration ▸ hd.named,
    fun hcandidates => ?_, ⟨inherited, hfields.docs.trans hsame, ?_⟩, ?_⟩
  · rw [hfields.overrides]
    exact ho.upholds.linked ho.settled hcandidates (hd.link (ho.upholds.originals_of hcandidates))
  · rw [hfields.overrides]
    exact hinherits.onward ho
  · exact (ho.upholds.overloaded ho.sound.filledMembers (List.Subset.refl _) hd.overload).mono
      ho.upholds.filled.subset hcore

/-- **A member with its common fields**: linked and documented, of a kind and a declaration, and without
    overloads so far. -/
structure Based (s : Store) (cx : Context) (c : Scope) (h : MemberHandle) (symbol : SymbolId)
    (declaration : Option DeclarationId) (kind : MemberKind) (own : Docs) (take : Docs → Docs) : Prop
    extends s.Documented cx (c.settled s) s.filled h symbol own take {} where
  kind : (s.member h).kind = kind
  declaration : (s.member h).declaration = declaration
  alone : (s.member h).overloads = none

/-- A member whose filling is over. -/
def Finished (s : Store) (cx : Context) (c : Scope) (h : MemberHandle) (symbol : SymbolId) : Prop :=
  s.MemberDone cx (c.settled s) s.filled h symbol

variable {declaration : Option DeclarationId} {kind : MemberKind} {own : Docs} {take : Docs → Docs}

theorem Based.onward (ho : c.Onward s s') (hcore : s.SameCore h s')
    (hb : s.Based cx c h symbol declaration kind own take) :
    s'.Based cx c h symbol declaration kind own take :=
  { hb.toDocumented.onward ho hcore with
    kind := (Member.fields_of_core hcore).kind.trans hb.kind
    declaration := (Member.fields_of_core hcore).declaration.trans hb.declaration
    alone := (Member.fields_of_core hcore).overloads.trans hb.alone }

/-- **A member that is linked and documented for good**, need list nothing and has its signature if it is
    a function: what else is written beside its common fields does not matter. -/
structure Steady (s : Store) (cx : Context) (c : Scope) (h : MemberHandle) (symbol : SymbolId) : Prop where
  unlisting : (s.member h).kind.isListing = false
  documented : ∃ overloaded, s.Documented cx (c.settled s) s.filled h symbol
    (cx.facts.ownDocs (s.member h)) (s.member h).kind.inherits overloaded
  signed : s.SignedByType cx.facts s.filled h symbol

theorem Steady.finished (hd : s.Steady cx c h symbol) : s.Finished cx c h symbol := by
  obtain ⟨overloaded, hdocumented⟩ := hd.documented
  obtain ⟨hclass, hcontainer⟩ := Bool.or_eq_false_iff.1 hd.unlisting
  exact ⟨overloaded, hdocumented, fun he => absurd (he.symm.trans hclass) (by decide),
    fun he => absurd (he.symm.trans hcontainer) (by decide), hd.signed⟩

theorem Based.documented (hb : s.Based cx c h symbol declaration kind own take)
    (hown : own = cx.facts.declaredDocs kind declaration
      (cx.facts.commentOf kind symbol declaration).docs)
    (htake : take = kind.inherits) :
    s.Documented cx (c.settled s) s.filled h symbol (cx.facts.ownDocs (s.member h))
      (s.member h).kind.inherits {} := by
  have howned : cx.facts.ownDocs (s.member h) = own := by
    unfold Facts.ownDocs
    rw [hb.raw, hb.kind, hb.declaration]
    exact hown.symm
  rw [howned, hb.kind, ← htake]
  exact hb.toDocumented

/-- **A container that displays its exports** is filled. -/
theorem Based.displaying (hb : s.Based cx c h symbol declaration kind own take)
    (hown : own = cx.facts.declaredDocs kind declaration
      (cx.facts.commentOf kind symbol declaration).docs)
    (htake : take = kind.inherits) (hcontainer : kind.isContainer = true) {entries shown : List MemberHandle}
    (hmembers : (s.member h).members = some (shown.map some))
    (hdisplays : s.Displays cx.settings.sort (cx.facts.symbol symbol).exports entries shown) :
    s.Finished cx c h symbol := by
  obtain ⟨hplain, hclass⟩ := MemberKind.isPlain_of_isContainer hcontainer
  have hfunction := MemberKind.isFunction_of_isPlain hplain
  rw [← hb.kind] at hclass hfunction
  exact ⟨{}, hb.documented hown htake, fun he => absurd (he.symm.trans hclass) (by decide),
    fun _ => ⟨entries, shown, hmembers, hdisplays⟩, .of_not_isFunction hfunction⟩

theorem Based.steady (hb : s.Based cx c h symbol declaration kind own take)
    (hown : own = cx.facts.declaredDocs kind declaration
      (cx.facts.commentOf kind symbol declaration).docs)
    (htake : take = kind.inherits) (hkind : kind.isListing = false) (hfunction : kind.isFunction = false) :
    s.Steady cx c h symbol := by
  rw [← hb.kind] at hkind hfunction
  exact ⟨hkind, ⟨{}, hb.documented hown htake⟩, .of_not_isFunction hfunction⟩

/-- **What is steady stays so**, for a function as long as its signature does. -/
theorem Steady.onward (ho : c.Onward s s') (hcore : s.SameCore h s')
    (hsignature : (s.member h).kind.isFunction = true → s.SameSignature h s')
    (hd : s.Steady cx c h symbol) : s'.Steady cx c h symbol := by
  have hkind : (s'.member h).kind = (s.member h).kind := (Member.fields_of_core hcore).kind
  have howned : cx.facts.ownDocs (s'.member h) = cx.facts.ownDocs (s.member h) :=
    (congrArg cx.facts.ownDocs hcore :
      cx.facts.ownDocs (s'.member h).core = cx.facts.ownDocs (s.member h).core)
  obtain ⟨overloaded, hdocumented⟩ := hd.documented
  refine ⟨hkind ▸ hd.unlisting, ⟨overloaded, ?_⟩, ?_⟩
  · rw [howned, hkind]
    exact hdocumented.onward ho hcore
  · cases hfunction : (s.member h).kind.isFunction with
    | true => exact hd.signed.onward ho (hsignature hfunction)
    | false => exact .of_not_isFunction (hkind ▸ hfunction)

/-- A member that is not written stays so. -/
theorem Steady.kept (ho : c.Onward s s') (hsame : s'.member h = s.member h) (hd : s.Steady cx c h symbol) :
    s'.Steady cx c h symbol :=
  hd.onward ho (congrArg Member.core hsame) fun _ => .of_eq hsame

theorem Linked.le {n n' : Nat} (hn : n ≤ n') {symbols : List SymbolId} {o : Option MemberHandle}
    (h : s.Linked n symbols o) : s.Linked n' symbols o := by
  induction symbols with
  | nil => exact h
  | cons a rest ih =>
    obtain ⟨b, hb, hlt, hlink⟩ := h
    refine ⟨b, hb, Nat.lt_of_lt_of_le hlt hn, ?_⟩
    split
    · rename_i hprivate
      rw [if_pos hprivate] at hlink
      exact ih hlink
    · rename_i hopen
      rwa [if_neg hopen] at hlink

/-- The filling of a member is over. -/
theorem Finished.done (hd : s.Finished cx c h symbol) :
    s.Done cx s.members.size s.filled (.member h) := by
  obtain ⟨overloaded, hd⟩ := hd
  refine fun _ => ⟨symbol, overloaded, { hd with link := fun hcandidates => ?_ }⟩
  exact (hd.link hcandidates).le (c.settled_le s)

end Store

section Keeps

variable {cx : Context} {n : Nat} {c : Scope} {s : Store} {α : Type} {x : Build α} {h : MemberHandle}
variable {Q : α → Store → Prop} {symbol : SymbolId} {declaration : Option DeclarationId}
variable {kind : MemberKind} {own : Docs} {take : Docs → Docs}

theorem Keeps.based (hx : Keeps h cx n c s x Q)
    (hb : s.Based cx c h symbol declaration kind own take) :
    Runs cx n c s x (fun _ s' => s'.Based cx c h symbol declaration kind own take) :=
  Runs.mono hx fun _ _ ho hq => hb.onward ho hq.1

/-- What is written beside the common fields of a member that is no function ends its filling. -/
theorem Keeps.finished (hx : Keeps h cx n c s x Q) (hd : s.Steady cx c h symbol)
    (hkind : (s.member h).kind.isFunction = false) :
    Runs cx n c s x (fun _ s' => s'.Finished cx c h symbol) := by
  refine Runs.mono hx fun _ _ ho hq => (hd.onward ho hq.1 fun hfunction => ?_).finished
  exact absurd (hkind.symm.trans hfunction) Bool.false_ne_true

end Keeps

/-! ## 3. Common fields -/

/-- **A member that is about to be filled**: blank, the last one, and registered for its symbol if it is
    registered at all. -/
structure Scope.Begun (c : Scope) (s : Store) (h : MemberHandle) (symbol : SymbolId) : Prop where
  own : c.member = some h
  blank : s.member h = {}
  last : h.index + 1 = s.members.size
  key : ∀ k, s.members.keyAt h.index = some k → k = some symbol

/-- **What linking does to a member**: it sets the link among the symbols that may be overridden, and
    takes over documentation. -/
def Scope.Links (c : Scope) (h : MemberHandle) (symbols : List SymbolId) (s s' : Store) : Prop :=
  ∃ link inherited,
    (s'.member h).core = { (s.member h).core with
      overrides := link, docs := (s.member h).docs.backfill inherited } ∧
    s'.Linked (c.settled s') symbols link ∧ s'.Inherits s'.filled id link inherited

namespace Scope.Links

variable {c : Scope} {s s₁ s' : Store} {h b : MemberHandle} {a : SymbolId} {symbols : List SymbolId}

/-- Where no symbol may be overridden nothing is done. -/
theorem nil (hunset : (s.member h).overrides = none) (hsame : s.SameCore h s') : c.Links h [] s s' := by
  refine ⟨none, {}, hsame.trans ?_, rfl, rfl⟩
  rw [Docs.backfill_empty, ← hunset]
  rfl

/-- Nothing is linked before the record is as it was. -/
theorem of_eq (hsame : s₁.member h = s.member h) (hl : c.Links h symbols s₁ s') : c.Links h symbols s s' := by
  obtain ⟨link, inherited, hcore, hlinked⟩ := hl
  exact ⟨link, inherited, hsame ▸ hcore, hlinked⟩

/-- **A private member is passed over.** -/
theorem pass (hb : s'.IsMember (some a) b) (hlt : b.index < c.settled s')
    (hprivate : (s'.member b).has .private_ = true) (hl : c.Links h symbols s s') :
    c.Links h (a :: symbols) s s' := by
  obtain ⟨link, inherited, hcore, hlinked, hinherits⟩ := hl
  exact ⟨link, inherited, hcore, ⟨b, hb, hlt, by rwa [if_pos hprivate]⟩, hinherits⟩

/-- **Any other is linked**, and its documentation taken over. -/
theorem link (hb : s'.IsMember (some a) b) (hlt : b.index < c.settled s')
    (hopen : ¬ (s'.member b).has .private_ = true)
    (hcore : (s'.member h).core = { (s.member h).core with
      overrides := some b, docs := (s.member h).docs.backfill (s'.member b).docs }) :
    c.Links h (a :: symbols) s s' :=
  ⟨some b, (s'.member b).docs, hcore, ⟨b, hb, hlt, by rw [if_neg hopen]⟩, ⟨a, hb⟩, fun _ _ => rfl⟩

/-- **A member that is named, documented and linked** has its common fields. -/
theorem based {cx : Context} {symbol : SymbolId} {declaration : Option DeclarationId} {kind : MemberKind}
    {own : Docs} {name : String} (hname : cx.facts.givenName symbol declaration = .str name)
    (hcore : (s.member h).core =
      { kind, id := cx.facts.symbolId symbol, raw := some symbol, declaration, docs := own })
    (hl : c.Links h (cx.facts.overridden symbol) s s') :
    s'.Based cx c h symbol declaration kind own id := by
  obtain ⟨link, inherited, hlinkedCore, hlinked, hinherits⟩ := hl
  have hown : (s.member h).docs = own := (Member.fields_of_core_eq hcore).docs
  rw [hcore, hown] at hlinkedCore
  have hfields := Member.fields_of_core_eq hlinkedCore
  have hdeclaration : (s'.member h).declaration = declaration := hfields.declaration
  have hoverrides : (s'.member h).overrides = link := hfields.overrides
  have hdocs : (s'.member h).docs = own.backfill inherited := hfields.docs
  exact {
    raw := hfields.raw
    id := hfields.id
    named := ⟨name, hdeclaration ▸ hname⟩
    link := fun _ => hoverrides ▸ hlinked
    docs := ⟨inherited, by rw [hdocs, Docs.backfill_empty], hoverrides ▸ hinherits⟩
    overload := .inl rfl
    kind := hfields.kind
    declaration := hdeclaration
    alone := hfields.overloads }

end Scope.Links

namespace Build

variable {cx : Context} {r : Requests} {n : Nat} {c : Scope} {s : Store} {h : MemberHandle}
variable (hf : cx.facts.Closed) (hr : r.Lawful cx n)
include hf hr

/-- What a member is linked to, among the base types still to try. -/
theorem runs_linkOverridden_go (hm : c.member = some h) {symbol : SymbolId}
    (hkey : ∀ k, s.members.keyAt h.index = some k → k = some symbol)
    (hunset : (s.member h).overrides = none) (hlevel : (s.member h).modifiers.access ≠ [])
    (bases : List (Option TypeId)) :
    Runs cx n c s (linkOverridden.go cx r symbol h bases)
      (fun _ s' => c.Links h (bases.filterMap (cx.facts.overriddenIn symbol)) s s') := by
  -- asking for a candidate moves the store on, so the induction is over all stores
  induction bases generalizing s with
  | nil => exact .pure (.nil hunset rfl)
  | cons base rest ih =>
    unfold linkOverridden.go
    refine .ask (Context.gives_lookupMember hf _ _) fun o _ ⟨hlookup, ho⟩ => ?_
    have hcandidate := Facts.overriddenIn_eq hlookup
    have hskip : cx.facts.overriddenIn symbol base = none →
        Runs cx n c s (linkOverridden.go cx r symbol h rest) (fun _ s' =>
          c.Links h ((base :: rest).filterMap (cx.facts.overriddenIn symbol)) s s') := by
      intro hnone
      rw [List.filterMap_cons_none hnone]
      exact ih hkey hunset hlevel
    cases o with
    | none => exact hskip hcandidate
    | some a =>
      refine .branch (fun hself => ?_) fun hne => ?_
      · exact hskip (hcandidate.trans (Option.filter_some_neg (by simpa using hself)))
      rw [List.filterMap_cons_some (hcandidate.trans (Option.filter_some_pos (by simpa using hne)))]
      refine .sound fun _ hc => ?_
      have hin := (hc.member h hm).1
      refine Runs.bind (hr.asks_member ho) fun b s₁ ho₁ ⟨hframed, hb⟩ => .readMember ?_
      have hown : s₁.member h = s.member h := hframed.member h hin
      have hkey₁ : ∀ k, s₁.members.keyAt h.index = some k → k = some symbol := by
        intro k hk
        exact hkey k ((hframed.grows.members.keyAt _ hin).symm.trans hk)
      -- the candidate is registered for another symbol, so it is not the member that is filled
      have hother : b ≠ h := by
        rintro rfl
        have hsame := hkey₁ _ (Registry.keyAt_of_find? hb)
        cases hsame
        exact hne rfl
      have hlt : b.index < c.settled s₁ := by
        refine c.lt_settled hb.inside ?_
        rw [hm]
        exact fun he => hother (Option.some.inj he).symm
      -- a private candidate is passed over for good, as its access level is settled by now
      refine .branch (fun hprivate => ?_) fun hopen => ?_
      · refine (ih hkey₁ (hown ▸ hunset) (hown ▸ hlevel)).mono fun _ s₂ ho₂ hlinks => ?_
        have hkeyed : s₁.members.keyAt b.index ≠ none := by
          rw [Registry.keyAt_of_find? hb]
          exact fun he => nomatch he
        have haccess := Member.has_eq_of_standing (ho₂.standing_settled hlt hkeyed)
          (show Modifier.isPlacing .private_ = true from rfl)
        exact (hlinks.of_eq hown).pass (ho₂.upholds.isMember hb) (Nat.lt_of_lt_of_le hlt ho₂.settled)
          (haccess.trans hprivate)
      · refine .sound fun _ hc₁ => ?_
        refine Runs.mono (Runs.writeMember (s := s₁) (f := fun _ m => { m with
          overrides := some b, docs := m.docs.backfill (s₁.member b).docs }) hm (fun _ hrefers =>
          { hrefers with overrides := .some hb.inside }) (.inl rfl) (Scope.mayList_of_members rfl)
          fun l hl => .inr ⟨hown ▸ hlevel, a, Option.some.inj hl ▸ hb⟩) fun _ s₂ ho₂ he => ?_
        have hb₂ : s₂.member b = s₁.member b := by
          rw [he, Store.member_setMember_ne hother]
        refine .link (ho₂.upholds.isMember hb) (Nat.lt_of_lt_of_le hlt ho₂.settled) (hb₂ ▸ hopen) ?_
        rw [hb₂, he, Store.member_setMember_self (hc₁.member h hm).1, hown]
        rfl

theorem runs_linkOverridden (hm : c.member = some h) {symbol parent : SymbolId}
    (hparent : cx.facts.parentOf symbol = some parent)
    (hkey : ∀ k, s.members.keyAt h.index = some k → k = some symbol)
    (hunset : (s.member h).overrides = none) (hlevel : (s.member h).modifiers.access ≠ []) :
    Runs cx n c s (linkOverridden cx r symbol parent h)
      (fun _ s' => c.Links h (cx.facts.overridden symbol) s s') := by
  unfold linkOverridden Facts.overridden
  rw [hparent]
  dsimp only
  split
  · cases (cx.facts.symbol parent).declaredType with
    | none => exact .pure (.nil hunset rfl)
    | some t => exact runs_linkOverridden_go hf hr hm hkey hunset hlevel _
  · exact .pure (.nil hunset rfl)

omit hf hr in
/-- Naming a member and folding its comment into it changes no reference. -/
theorem refers_described {m : Model} {symbol : SymbolId} {declaration : Option DeclarationId}
    {kind : MemberKind} (d : DeclarationFacts) (flags : SymbolFlags) (comment : Comment) (name : String)
    {x : Member} (hx : x.Refers m) :
    (document d flags comment name (identify cx symbol declaration kind x)).Refers m := by
  have hwritten : Member.Refers m { identify cx symbol declaration kind x with
      modifiers := writtenModifiers d flags (identify cx symbol declaration kind x).modifiers
      docs := { (identify cx symbol declaration kind x).docs with
        summary := nonEmpty comment.text } } := { hx with }
  exact { hwritten.applyTags comment.tags _ with }

/-- **The common fields**, the comment being the one that documents the record. -/
theorem runs_fillBase {symbol : SymbolId} (hb : c.Begun s h symbol) {comment : Comment}
    {declaration : Option DeclarationId} {kind : MemberKind}
    (hcomment : comment = cx.facts.commentOf kind symbol declaration) :
    Runs cx n c s (fillBase cx r comment symbol declaration kind h)
      (fun _ s' => s'.Based cx c h symbol declaration kind comment.docs id) := by
  have hm := hb.own
  unfold fillBase
  refine .sound fun _ hc => ?_
  have hin := (hc.member h hm).1
  refine .writeRead hin ?_
  rw [hb.blank]
  dsimp only
  split
  · -- nothing happens between the name and the comment: they are one write
    rename_i name hname
    refine .writeTwice ((Runs.writeMember (s := s) (f := fun _ m => document
      ((declaration.map cx.facts.declaration).getD {}) (cx.facts.symbol symbol).flags comment name
      (identify cx symbol declaration kind m)) hm (fun _ hrefers => refers_described _ _ _ _ hrefers)
      (.inr ⟨hb.last, ?_⟩) (Scope.mayList_of_members (members_described ..))
      (fun l hl => ?_)).bind fun _ s₂ ho₂ he₂ => ?_)
    · rw [hb.blank, hcomment]
      exact described_document hname _
    · rw [hb.blank, hcomment, (described_document hname _).unlinked] at hl
      exact nomatch hl
    have hcore₂ : (s₂.member h).core =
        { kind, id := cx.facts.symbolId symbol, raw := some symbol, declaration
          docs := comment.docs } := by
      rw [he₂, Store.member_setMember_self hin, hb.blank]
      exact core_described ..
    have hlevel₂ : (s₂.member h).modifiers.access ≠ [] := by
      rw [he₂, Store.member_setMember_self hin, hb.blank,
        access_document _ _ _ _ ((access_identify {}).trans (by decide))]
      exact List.cons_ne_nil _ _
    -- without a parent there are no candidates
    cases hparent : cx.facts.parentOf symbol with
    | none =>
      have hnone : cx.facts.overridden symbol = [] := by
        unfold Facts.overridden
        rw [hparent]
      refine .pure (Scope.Links.based hname hcore₂ ?_)
      rw [hnone]
      exact .nil (Member.fields_of_core_eq hcore₂).overrides rfl
    | some parent =>
      have hkey := Facts.symbolKey_some (Facts.parentOf_declared hf hparent)
      refine .sound fun _ hc₂ => Runs.bind (hr.asks_member hkey) fun p s₃ ho₃ ⟨hframed, hp⟩ => ?_
      refine .sound fun _ hc₃ => Runs.bind (Runs.modifyMember hm (fun _ => rfl) (fun _ => rfl)
        (fun _ => rfl) fun _ hrefers => { hrefers with parent := .some hp.inside }) fun _ s₄ ho₄ he₄ => ?_
      have hown₄ : s₄.member h = { s₂.member h with parent := some p } := by
        rw [he₄, Store.member_setMember_self (hc₃.member h hm).1, hframed.member h (hc₂.member h hm).1]
      have hcore₄ : (s₄.member h).core =
          { kind, id := cx.facts.symbolId symbol, raw := some symbol, declaration
            docs := comment.docs } := by
        rw [hown₄]
        exact hcore₂
      -- the record stays registered for its symbol, whatever asking for the parent has added
      have hkey₄ : ∀ k, s₄.members.keyAt h.index = some k → k = some symbol := by
        intro k hk
        have hg := (ho₂.grows.trans ho₃.grows).trans ho₄.grows
        exact hb.key k ((hg.members.keyAt _ hin).symm.trans hk)
      refine (runs_linkOverridden hf hr hm hparent hkey₄ ?_ ?_).mono fun _ s₅ _ hlinks =>
        hlinks.based hname hcore₄
      · exact (Member.fields_of_core_eq hcore₄).overrides
      · rw [hown₄]
        exact hlevel₂
  · rename_i hname
    -- without a name there is a fault, after the record was written once
    refine (Runs.writeMember (s := s) (f := fun _ => identify cx symbol declaration kind) hm
      (fun _ hrefers => { hrefers with }) (.inr ⟨hb.last, ?_⟩)
      (Scope.mayList_of_members rfl) (Store.mayLink_of_overrides rfl)).bind fun _ _ _ _ =>
        .throw (by decide)
    rw [hb.blank]
    exact described_identify fun name => hname name

/-- A record that is no function is documented by the comment of its symbol. -/
theorem runs_fillSymbol {symbol : SymbolId} (hb : c.Begun s h symbol)
    {declaration : Option DeclarationId} {kind : MemberKind} (hkind : kind.isFunction = false) :
    Runs cx n c s (fillBase cx r (cx.facts.symbol symbol).comment symbol declaration kind h) (fun _ s' =>
      s'.Based cx c h symbol declaration kind (cx.facts.symbol symbol).comment.docs id) :=
  runs_fillBase hf hr hb (Facts.commentOf_of_not_isFunction hkind symbol declaration).symm

/-! ## 4. What a declaration adds -/

omit hf hr in
/-- What a declaration says is the member's own; only the inherited part may lose something by it. -/
theorem runs_declare (hm : c.member = some h) {symbol : SymbolId} {declaration : Option DeclarationId}
    {kind : MemberKind} {own own' : Docs} {take g : Docs → Docs} {f : Docs → Docs}
    (hdocs : ∀ inherited : Docs, f (own.backfill inherited) = own'.backfill (g inherited))
    (hlose : g {} = {}) (hb : s.Based cx c h symbol declaration kind own take) :
    Runs cx n c s (modifyMember h (fun m => { m with docs := f m.docs }))
      (fun _ s' => s'.Based cx c h symbol declaration kind own' (fun d => g (take d))) := by
  refine .sound fun _ hc => ?_
  have hin := (hc.member h hm).1
  refine Runs.mono (Runs.modifyMember hm (fun _ => rfl) (fun _ => rfl) (fun _ => rfl) fun _ hrefers =>
    { hrefers with }) fun _ s' ho he => ?_
  have hown : s'.member h = { s.member h with docs := f (s.member h).docs } := by
    rw [he, Store.member_setMember_self hin]
  obtain ⟨inherited, hsame, hinherits⟩ := hb.docs
  refine {
    raw := by rw [hown]; exact hb.raw
    id := by rw [hown]; exact hb.id
    named := by rw [hown]; exact hb.named
    link := fun hcandidates => ?_
    docs := ⟨g inherited, ?_, ?_⟩
    overload := .inl rfl
    kind := by rw [hown]; exact hb.kind
    declaration := by rw [hown]; exact hb.declaration
    alone := by rw [hown]; exact hb.alone }
  · rw [hown]
    exact ho.upholds.linked ho.settled hcandidates (hb.link (ho.upholds.originals_of hcandidates))
  · rw [hown, Docs.backfill_empty, ← hdocs]
    rw [Docs.backfill_empty] at hsame
    exact congrArg f hsame
  · rw [hown]
    exact (hinherits.onward ho).map hlose

end Build

end ApiReference
