/-
  Overriding members and their documentation.

  A member that overrides another is linked to it, takes over the documentation that it does not have
  of its own, and keeps what it has.  The link is right whenever the member is filled, since whether a
  member is private is settled before anyone can meet it.  What is taken over is what the other has at
  that moment: all of it, if the other was filled by then.

  1. `override_links`      -- the link, and one's own documentation;
  2. `override_documents`  -- what is taken over.
-/
import ApiReference.Proofs.Session

namespace ApiReference

/-- The link of an overriding member is not private. -/
theorem Store.Linked.not_private {s : Store} {n : Nat} {symbols : List SymbolId} {l : MemberHandle}
    (h : s.Linked n symbols (some l)) : (s.member l).has .private_ = false := by
  induction symbols with
  | nil => exact nomatch (h : some l = none)
  | cons a rest ih =>
    obtain ⟨x, -, -, hlink⟩ := h
    split at hlink
    · exact ih hlink
    · rename_i hopen
      cases hlink
      exact Bool.not_eq_true _ ▸ hopen

namespace Session

variable {s : Session} {document : Value} {config : Option Value} {w : Workspace}

/-! ## 1. Links -/

/-- **Links are right, and one's own documentation stays.**  In every session, failed steps included,
    take a filled member that is no copy.  It stands for a symbol.  If no copy documents a member that
    the symbol may override, it is linked to the first of these, in the order of the base types, that is
    not private, or to none if there is none; so never to a private one.  Its documentation is its own,
    with what that leaves unset taken over. -/
theorem override_links (hs : Reachable document config s) (hw : s.workspace = some w)
    {h : MemberHandle} (hfilled : .member h ∈ w.store.filled) (horiginal : w.store.Original h) :
    ∃ symbol, (w.store.member h).raw = some symbol ∧
      (w.store.Originals (w.context.facts.overridden symbol) →
        w.store.Linked w.store.members.size (w.context.facts.overridden symbol)
          (w.store.member h).overrides ∧
        ∀ l, (w.store.member h).overrides = some l → (w.store.member l).has .private_ = false) ∧
      ∃ taken, (w.store.member h).docs =
        (w.context.facts.ownDocs (w.store.member h)).backfill taken := by
  obtain ⟨before, hdone⟩ := hs.done hw hfilled
  obtain ⟨symbol, overloaded, hdocumented⟩ := hdone horiginal
  obtain ⟨inherited, hdocs, -⟩ := hdocumented.docs
  refine ⟨symbol, hdocumented.raw, fun hcandidates => ?_, inherited.backfill overloaded, ?_⟩
  · have hlinked := hdocumented.link hcandidates
    refine ⟨hlinked, fun l hl => ?_⟩
    rw [hl] at hlinked
    exact hlinked.not_private
  · rw [hdocs, Docs.backfill_assoc]

/-- A class over two others, all three with a member by one name: private in the first base, and with a
    value and the derived class as its type in the second. -/
def overridingDocument : Value := .map [
  ("declarations", .map [
    ("a", .map [("kind", .str "PropertyDeclaration"), ("modifiers", .list [.str "Private"])]),
    ("b", .map [("kind", .str "PropertyDeclaration"), ("initializer", .str "1")]),
    ("d", .map [("kind", .str "PropertyDeclaration")]),
    ("c", .map [("kind", .str "ClassDeclaration")])]),
  ("symbols", .map [
    ("A", .map [("name", .str "A"), ("flags", .str "CLASS"), ("declarations", .list [.str "c"]),
      ("declaredType", .str "TA"), ("members", .map [("m", .str "am")])]),
    ("B", .map [("name", .str "B"), ("flags", .str "CLASS"), ("declarations", .list [.str "c"]),
      ("declaredType", .str "TB"), ("members", .map [("m", .str "bm")])]),
    ("D", .map [("name", .str "D"), ("flags", .str "CLASS"), ("declarations", .list [.str "c"]),
      ("declaredType", .str "TD"), ("members", .map [("m", .str "dm")])]),
    ("am", .map [("name", .str "m"), ("flags", .str "PROPERTY"), ("parent", .str "A"),
      ("declarations", .list [.str "a"])]),
    ("bm", .map [("name", .str "m"), ("flags", .str "PROPERTY"), ("parent", .str "B"),
      ("declarations", .list [.str "b"]), ("type", .str "TD")]),
    ("dm", .map [("name", .str "m"), ("flags", .str "PROPERTY"), ("parent", .str "D"),
      ("declarations", .list [.str "d"])])]),
  ("types", .map [
    ("TA", .map [("flags", .str "OBJECT"), ("objectFlags", .str "CLASS"), ("symbol", .str "A")]),
    ("TB", .map [("flags", .str "OBJECT"), ("objectFlags", .str "CLASS"), ("symbol", .str "B")]),
    ("TD", .map [("flags", .str "OBJECT"), ("objectFlags", .str "CLASS"), ("symbol", .str "D"),
      ("properties", .list [.str "dm"]), ("baseTypes", .list [.str "TA", .str "TB"])])])]

/-- **A workspace that was asked for the overriding member** of the derived class.  It has no copies,
    has filled the member last and the two it may override before it, and has linked it to the second. -/
structure Overriding (w : Workspace) : Prop where
  original : ∀ h, w.store.Original h
  last : w.store.filled.head? = some (.member ⟨0⟩)
  earlier : .member ⟨5⟩ ∈ w.store.filled.tail
  raw : (w.store.member ⟨0⟩).raw = some ⟨"dm"⟩
  candidates : w.context.facts.overridden ⟨"dm"⟩ = [⟨"am"⟩, ⟨"bm"⟩]
  link : (w.store.member ⟨0⟩).overrides = some ⟨5⟩
  passed : w.store.IsMember (some ⟨"am"⟩) ⟨4⟩
  passedPrivate : (w.store.member ⟨4⟩).has .private_ = true
  value : (w.store.member ⟨5⟩).docs.defaultValue.isSome = true

/-- Asked for the overriding member, the two it may override are filled before it. -/
abbrev FromOverriding (w : Workspace) : Prop :=
  w.store.copies = [] ∧
  w.store.filled.head? = some (.member ⟨0⟩) ∧ .member ⟨5⟩ ∈ w.store.filled.tail ∧
  (w.store.member ⟨0⟩).raw = some ⟨"dm"⟩ ∧
  w.context.facts.overridden ⟨"dm"⟩ = [⟨"am"⟩, ⟨"bm"⟩] ∧
  (w.store.member ⟨0⟩).overrides = some ⟨5⟩ ∧
  w.store.members.find? (some ⟨"am"⟩) = some 4 ∧
  (w.store.member ⟨4⟩).has .private_ = true ∧
  (w.store.member ⟨5⟩).docs.defaultValue.isSome = true

/-- Asked for the overridden member, the other is filled while that is open. -/
abbrev FromOverridden (w : Workspace) : Prop :=
  w.store.members.find? (some ⟨"dm"⟩) = some 4 ∧ w.store.copies = [] ∧
  (w.store.member ⟨4⟩).overrides = some ⟨0⟩ ∧ (w.store.member ⟨4⟩).overloads = none ∧
  (w.context.facts.ownDocs (w.store.member ⟨4⟩)).defaultValue.isNone = true ∧
  (w.store.member ⟨4⟩).docs.defaultValue.isSome = false ∧
  (w.store.member ⟨0⟩).docs.defaultValue.isSome = true

/-- Both members can be asked for first. -/
theorem exists_overrides : ∃ s, Session.start overridingDocument none = .ok s ∧
    s.finds (.request (.member (.symbol "dm"))) (fun w => decide (FromOverriding w)) = true ∧
    s.finds (.request (.member (.symbol "bm"))) (fun w => decide (FromOverridden w)) = true := by
  have hcheck : (Session.start overridingDocument none).toOption.any (fun s =>
      s.finds (.request (.member (.symbol "dm"))) (fun w => decide (FromOverriding w)) &&
      s.finds (.request (.member (.symbol "bm"))) (fun w => decide (FromOverridden w))) = true := by
    decide +kernel
  obtain ⟨s, hstart, hs⟩ := exists_start hcheck
  exact ⟨s, hstart, Bool.and_eq_true_iff.1 hs⟩

theorem exists_overriding :
    ∃ s w, Unfailing overridingDocument none s ∧ s.workspace = some w ∧ Overriding w := by
  obtain ⟨_, hstart, hfinds, -⟩ := exists_overrides
  obtain ⟨s, w, hs, hw, hfound⟩ := exists_of_finds hstart hfinds
  obtain ⟨hcopies, last, earlier, raw, candidates, link, passed, passedPrivate, value⟩ :=
    of_decide_eq_true hfound
  have original : ∀ h, w.store.Original h := fun h => .of_nil hcopies
  exact ⟨s, w, hs, hw, ⟨original, last, earlier, raw, candidates, link, passed, passedPrivate, value⟩⟩

/-- The private member of the first base is passed over. -/
theorem override_links_past_private : ∃ s w, Reachable overridingDocument none s ∧
    s.workspace = some w ∧ .member ⟨0⟩ ∈ w.store.filled ∧ w.store.Original ⟨0⟩ ∧
    w.store.IsMember (some ⟨"am"⟩) ⟨4⟩ ∧ (w.store.member ⟨4⟩).has .private_ = true ∧
    (w.store.member ⟨0⟩).overrides = some ⟨5⟩ ∧
    w.store.Linked w.store.members.size [⟨"am"⟩, ⟨"bm"⟩] (w.store.member ⟨0⟩).overrides ∧
    (w.store.member ⟨5⟩).has .private_ = false := by
  obtain ⟨s, w, hs, hw, hfound⟩ := exists_overriding
  have hfilled : .member ⟨0⟩ ∈ w.store.filled := List.mem_of_mem_head? hfound.last
  obtain ⟨symbol, hsymbol, hlinks, -⟩ := override_links hs.reachable hw hfilled (hfound.original _)
  cases Option.some.inj (hsymbol.symm.trans hfound.raw)
  rw [hfound.candidates] at hlinks
  obtain ⟨hlinked, hopen⟩ := hlinks fun _ _ h _ => hfound.original h
  exact ⟨s, w, hs.reachable, hw, hfilled, hfound.original _, hfound.passed, hfound.passedPrivate,
    hfound.link, hlinked, hopen _ hfound.link⟩

/-! ## 2. Documentation taken over -/

/-- **What is taken over of a member that was filled before.**  In every session, failed steps included,
    take a filled member that is no copy and is linked to one that is no copy and was filled before it.
    Where the member leaves a field of its documentation unset, it has what the other has there, and
    where that is unset too, what its last overload has. -/
theorem override_documents (hs : Reachable document config s) (hw : s.workspace = some w)
    {h l : MemberHandle} (horiginal : w.store.Original h)
    (hlink : (w.store.member h).overrides = some l) (hlast : w.store.Original l)
    (hbefore : w.store.FilledBefore (.member l) (.member h)) :
    ∃ overloaded, w.store.Overloaded w.store.filled (w.store.member h) overloaded ∧
      (w.store.member h).docs = ((w.context.facts.ownDocs (w.store.member h)).backfill
        ((w.store.member h).kind.inherits (w.store.member l).docs)).backfill overloaded := by
  obtain ⟨before, hentry, hmem⟩ := hbefore
  obtain ⟨symbol, overloaded, hdocumented⟩ := hs.logged hw hentry horiginal
  obtain ⟨inherited, hdocs, hinherits⟩ := hdocumented.docs
  rw [hlink] at hinherits
  refine ⟨overloaded, ?_, ?_⟩
  · refine hdocumented.overload.imp id ?_
    rintro ⟨o, ho, hrest⟩
    exact ⟨o, hentry.subset (List.mem_cons_of_mem _ ho), hrest⟩
  · rw [hdocs, hinherits.2 hmem hlast]

/-- Asked for the overriding member, the other is filled before it, and its value is taken over. -/
theorem override_documents_filled : ∃ s w, Reachable overridingDocument none s ∧
    s.workspace = some w ∧ w.store.Original ⟨0⟩ ∧ (w.store.member ⟨0⟩).overrides = some ⟨5⟩ ∧
    w.store.Original ⟨5⟩ ∧ w.store.FilledBefore (.member ⟨5⟩) (.member ⟨0⟩) ∧
    (w.store.member ⟨5⟩).docs.defaultValue.isSome = true ∧
    ∃ overloaded, w.store.Overloaded w.store.filled (w.store.member ⟨0⟩) overloaded ∧
      (w.store.member ⟨0⟩).docs = ((w.context.facts.ownDocs (w.store.member ⟨0⟩)).backfill
        ((w.store.member ⟨0⟩).kind.inherits (w.store.member ⟨5⟩).docs)).backfill overloaded := by
  obtain ⟨s, w, hs, hw, hfound⟩ := exists_overriding
  have hbefore : w.store.FilledBefore (.member ⟨5⟩) (.member ⟨0⟩) := by
    refine ⟨w.store.filled.tail, ?_, hfound.earlier⟩
    rw [List.cons_head?_tail hfound.last]
  exact ⟨s, w, hs.reachable, hw, hfound.original _, hfound.link, hfound.original _, hbefore,
    hfound.value, override_documents hs.reachable hw (hfound.original _) hfound.link
      (hfound.original _) hbefore⟩

/-- **Asked for the overridden member, the other is filled while that is open**, and stays without its
    value, though no step failed and the value is set neither by its own documentation nor by an
    overload. -/
theorem override_left_undocumented : ∃ s w, Unfailing overridingDocument none s ∧
    s.workspace = some w ∧ w.store.IsMember (some ⟨"dm"⟩) ⟨4⟩ ∧ w.store.Original ⟨4⟩ ∧
    (w.store.member ⟨4⟩).overrides = some ⟨0⟩ ∧ (w.store.member ⟨4⟩).overloads = none ∧
    (w.context.facts.ownDocs (w.store.member ⟨4⟩)).defaultValue = none ∧
    (w.store.member ⟨4⟩).docs.defaultValue ≠ (w.store.member ⟨0⟩).docs.defaultValue := by
  obtain ⟨_, hstart, -, hfinds⟩ := exists_overrides
  obtain ⟨s, w, hs, hw, hfound⟩ := exists_of_finds hstart hfinds
  obtain ⟨hfind, hcopies, hlink, halone, hown, hunset, hset⟩ := of_decide_eq_true hfound
  refine ⟨s, w, hs, hw, hfind, .of_nil hcopies, hlink, halone, Option.isNone_iff_eq_none.1 hown,
    fun he => ?_⟩
  rw [he, hset] at hunset
  exact nomatch hunset

end Session

end ApiReference
