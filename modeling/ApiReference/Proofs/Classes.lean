/-
  What classes list.

  A class or interface has one entry for each symbol of its two sides: the member of the symbol itself,
  if the class declares it, else a view that belongs to this one entry.  A view shows what the member
  shows that it stands for, also when that was still being filled when the view was made.

  1. `Side.view`, `Store.ShowsFor`   -- what an entry shows;
  2. `Session.classes_listed`        -- the entries of a class.
-/
import ApiReference.Proofs.Session

namespace ApiReference

/-! ## 1. Entries -/

/-- **What a view shows**: a member under another id, on the instance side with that member as its base,
    on the static side marked as static and with the class that lists it as its parent. -/
def Side.view (side : Side) (owner child : MemberHandle) (id : String) (m : Member) : Member :=
  match side with
  | .instance_ => { m with base := some child, id }
  | .static_ => { m.mark .static with parent := some owner, id }

theorem Side.apply_adjust (side : Side) (owner child : MemberHandle) (id : String) (m : Member) :
    (side.adjust owner child id).apply m = side.view owner child id m := by
  cases side <;> rfl

/-- **An entry of a class for a symbol**: the cached member of the symbol exactly if the class declares
    it, else a member that is cached for no symbol and shows what the cached one does. -/
structure Store.ShowsFor (s : Store) (f : Facts) (side : Side) (owner : MemberHandle)
    (symbol p : SymbolId) (v : MemberHandle) : Prop where
  own : s.IsMember (some p) v ↔ f.parentOf p = some symbol
  view : f.parentOf p ≠ some symbol → (∀ k, ¬ s.IsMember k v) ∧ ∃ child, s.IsMember (some p) child ∧
    s.member v =
      side.view owner child ((s.member owner).id ++ "." ++ (f.symbol p).escapedName) (s.member child)

namespace Store

variable {s : Store} {f : Facts} {side : Side} {owner v : MemberHandle} {symbol p : SymbolId}

/-- A member without a key is cached for no symbol. -/
theorem not_isMember_of_keyAt (hkey : s.members.keyAt v.index = none) (k : Option SymbolId) :
    ¬ s.IsMember k v := by
  intro hk
  rw [Registry.keyAt_of_find? hk] at hkey
  exact nomatch hkey

/-- **When every copy is in step**, an entry shows what it should. -/
theorem IsEntry.shows (h : s.IsEntry f side owner symbol p v) (hsynced : ∀ d ∈ s.copies, d.Synced s)
    (hid : (s.member owner).id = f.symbolId symbol) : s.ShowsFor f side owner symbol p v := by
  unfold IsEntry at h
  split at h
  · rename_i hown
    exact ⟨⟨fun _ => hown, fun _ => h⟩, fun hne => absurd hown hne⟩
  · rename_i hforeign
    refine ⟨⟨fun hk => absurd hk (not_isMember_of_keyAt h.key _), fun hown => absurd hown hforeign⟩,
      fun _ => ⟨not_isMember_of_keyAt h.key, ?_⟩⟩
    obtain ⟨child, hchild, hcopy⟩ := h.copied
    refine ⟨child, hchild, ?_⟩
    rw [hid, ← Side.apply_adjust]
    exact hsynced _ hcopy

/-- A view is one entry of its list. -/
theorem count_of_nodup_views {vs : List MemberHandle} (hvs : (s.views vs).Nodup) (hv : v ∈ vs)
    (hkey : s.members.keyAt v.index = none) : vs.count v = 1 := by
  have hview : (s.members.keyAt v.index).isNone = true := Option.isNone_iff_eq_none.2 hkey
  rw [← List.count_filter (p := fun v => (s.members.keyAt v.index).isNone) hview]
  exact List.count_eq_one_of_mem hvs (List.mem_filter.2 ⟨hv, hview⟩)

end Store

/-! ## 2. Classes -/

namespace Session

variable {s : Session} {document : Value} {config : Option Value} {w : Workspace}

/-- **A class lists every member once**, its own directly and foreign ones as views.  In every session
    that steps lead to, failed ones included, take a filled class or interface that is no copy.  It stands
    for a symbol, and lists first the entries of its instance side, in some order, one for each symbol
    there: the constructor and the call signature of the type it declares, or that its first construct
    signature gives, the properties of that type and its index signature.  Then come those of its static
    side, in order, one for each property of its own type but the prototype.  A view is no other entry of
    the class, and no other class or container lists it, copies apart, which show what their source
    does. -/
theorem classes_listed (hs : Reachable document config s) (hw : s.workspace = some w) {h : MemberHandle}
    (hfilled : .member h ∈ w.store.filled) (horiginal : w.store.Original h)
    (hkind : (w.store.member h).kind.isInheriting = true) :
    ∃ symbol shown statics, (w.store.member h).raw = some symbol ∧
      (w.store.member h).members = some ((shown ++ statics).map some) ∧
      (∃ ps entries, w.context.instanceSymbols symbol = .ok ps ∧ shown.Perm entries ∧
        List.Forall₂ (w.store.ShowsFor w.context.facts .instance_ h symbol) ps entries) ∧
      (∃ ps, w.context.staticSymbols symbol = .ok ps ∧
        List.Forall₂ (w.store.ShowsFor w.context.facts .static_ h symbol) ps statics) ∧
      ∀ v ∈ shown ++ statics, (∀ k, ¬ w.store.IsMember k v) →
        (shown ++ statics).count v = 1 ∧
        ∀ x, w.store.Original x → (w.store.member x).Lists v → x = h := by
  have hrest := (hs.valid.workspace w hw).rest
  obtain ⟨before, hdone⟩ := hs.done hw hfilled
  obtain ⟨symbol, overloaded, hcompleted⟩ := hdone horiginal
  obtain ⟨shown, statics, hlisting⟩ := hcompleted.listing hkind
  have hshows : ∀ side p v, w.store.IsEntry w.context.facts side h symbol p v →
      w.store.ShowsFor w.context.facts side h symbol p v :=
    fun _ _ _ hentry => hentry.shows hrest.synced hcompleted.id
  refine ⟨symbol, shown, statics, hcompleted.raw, hlisting.members, ?_, ?_, fun v hv hview => ?_⟩
  · obtain ⟨ps, entries, hps, hentries, hperm⟩ := hlisting.onInstance
    exact ⟨ps, entries, hps, hperm, hentries.imp fun _ _ => hshows _ _ _⟩
  · obtain ⟨ps, hps, hentries⟩ := hlisting.onStatic
    exact ⟨ps, hps, hentries.imp fun _ _ => hshows _ _ _⟩
  -- an entry that no key leads to is a view
  · have hkey : w.store.members.keyAt v.index = none := by
      rcases hrest.sound.memberKeys.cachedOnce v.index with ⟨k, -, hk⟩ | ⟨hnone, -⟩
      · exact absurd ((hk k).2 rfl) (hview k)
      · exact hnone
    have hlists : (w.store.member h).Lists v := by
      unfold Member.Lists
      rw [hlisting.members]
      exact List.mem_map_of_mem hv
    exact ⟨Store.count_of_nodup_views hlisting.views hv hkey,
      fun x hx hlisted => hrest.apart x h v hx horiginal hlisted hlists hkey⟩

/-- A class over another, whose only property it shows on both sides. -/
def inheritingDocument : Value := .map [
  ("declarations", .map [
    ("c", .map [("kind", .str "ClassDeclaration")]),
    ("p", .map [("kind", .str "PropertyDeclaration")])]),
  ("symbols", .map [
    ("B", .map [("name", .str "B"), ("flags", .str "CLASS"), ("declarations", .list [.str "c"]),
      ("declaredType", .str "TB")]),
    ("C", .map [("name", .str "C"), ("flags", .str "CLASS"), ("declarations", .list [.str "c"]),
      ("declaredType", .str "TC"), ("type", .str "SC")]),
    ("own", .map [("name", .str "own"), ("flags", .str "PROPERTY"), ("parent", .str "C"),
      ("declarations", .list [.str "p"])]),
    ("old", .map [("name", .str "old"), ("flags", .str "PROPERTY"), ("parent", .str "B"),
      ("declarations", .list [.str "p"])]),
    ("proto", .map [("name", .str "prototype"), ("flags", .str "PROTOTYPE"), ("parent", .str "C"),
      ("declarations", .list [.str "p"])])]),
  ("types", .map [
    ("TB", .map [("flags", .str "OBJECT"), ("objectFlags", .str "CLASS"), ("symbol", .str "B"),
      ("properties", .list [.str "old"])]),
    ("TC", .map [("flags", .str "OBJECT"), ("objectFlags", .str "CLASS"), ("symbol", .str "C"),
      ("properties", .list [.str "own"]), ("baseTypes", .list [.str "TB"])]),
    ("SC", .map [("flags", .str "OBJECT"), ("properties", .list [.str "proto", .str "old"])])])]

/-- Members in the order of the facts. -/
def unsorted : Value := .map [("serializer", .map []),
  ("members", .map [("event_pattern", .str "^on"), ("sort", .bool false)])]

/-- The class lists its own property and two views of the other, which have the same id: the last one
    is that of the static side.  Nobody else lists either of them. -/
theorem classes_listed_both_sides : ∃ s w, Reachable inheritingDocument (some unsorted) s ∧
    s.workspace = some w ∧ .member ⟨0⟩ ∈ w.store.filled ∧ w.store.Original ⟨0⟩ ∧
    (w.store.member ⟨0⟩).kind.isInheriting = true ∧
    (w.store.member ⟨0⟩).members = some [some ⟨3⟩, some ⟨4⟩, some ⟨5⟩] ∧
    w.store.IsMember (some ⟨"own"⟩) ⟨3⟩ ∧ (w.store.member ⟨4⟩).id = (w.store.member ⟨5⟩).id ∧
    w.store.ShowsFor w.context.facts .static_ ⟨0⟩ ⟨"C"⟩ ⟨"old"⟩ ⟨5⟩ ∧
    ∀ v : MemberHandle, v = ⟨4⟩ ∨ v = ⟨5⟩ → (∀ k, ¬ w.store.IsMember k v) ∧
      ∀ x, w.store.Original x → (w.store.member x).Lists v → x = ⟨0⟩ := by
  have hcheck : (Session.start inheritingDocument (some unsorted)).toOption.any (fun s =>
      ((step (.request (.member (.symbol "C")))).run s).1.toOption.isSome &&
      ((step (.request (.member (.symbol "C")))).run s).2.workspace.any fun w =>
        decide (.member ⟨0⟩ ∈ w.store.filled ∧ (∀ p ∈ w.store.copies, p.target ≠ ⟨0⟩) ∧
          (w.store.member ⟨0⟩).kind.isInheriting = true ∧ (w.store.member ⟨0⟩).raw = some ⟨"C"⟩ ∧
          (w.store.member ⟨0⟩).members = some [some ⟨3⟩, some ⟨4⟩, some ⟨5⟩] ∧
          w.store.members.find? (some ⟨"own"⟩) = some 3 ∧
          (w.store.member ⟨4⟩).id = (w.store.member ⟨5⟩).id ∧
          (w.context.staticSymbols ⟨"C"⟩).toOption = some [⟨"old"⟩] ∧
          w.store.members.keyAt 4 = none ∧ w.store.members.keyAt 5 = none)) = true := by
    decide +kernel
  obtain ⟨s, w, hs, hw, hfound⟩ := exists_step _ hcheck
  obtain ⟨hfilled, horiginal, hkind, hraw, hmembers, hown, hids, hstatic, hfourth, hfifth⟩ :=
    of_decide_eq_true hfound
  obtain ⟨symbol, shown, statics, hsymbol, hlisted, -, ⟨ps, hps, hentries⟩, honly⟩ :=
    classes_listed hs.reachable hw hfilled horiginal hkind
  cases Option.some.inj (hsymbol.symm.trans hraw)
  have hall : shown ++ statics = [⟨3⟩, ⟨4⟩, ⟨5⟩] := by
    refine List.map_injective_iff.2 (Option.some_injective _) ?_
    exact Option.some.inj (hlisted.symm.trans hmembers)
  rw [hps] at hstatic
  cases hstatic
  -- the one static entry is the last that is listed
  cases hentries with
  | cons hentry hrest =>
    rename_i v rest
    cases hrest
    have hlast : (shown ++ [v]).getLast? = some ⟨5⟩ := by
      rw [hall]
      rfl
    rw [List.getLast?_append] at hlast
    cases hlast
    refine ⟨s, w, hs.reachable, hw, hfilled, horiginal, hkind, hmembers, hown, hids, hentry,
      fun v hv => ?_⟩
    have hkey : w.store.members.keyAt v.index = none := by
      rcases hv with rfl | rfl
      · exact hfourth
      · exact hfifth
    have hview := Store.not_isMember_of_keyAt (s := w.store) hkey
    refine ⟨hview, (honly v ?_ hview).2⟩
    rw [hall]
    rcases hv with rfl | rfl <;> decide

end Session

end ApiReference
