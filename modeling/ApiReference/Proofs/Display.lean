/-
  What is displayed stands in order.

  A container sorts its members while some of them are still being filled.  The places that the order
  reads are settled before anyone can ask for a member, so the order is the order of the finished
  members; only an alias, which shows what its target shows, may stand elsewhere.

  1. `Store.InDisplayOrder`        -- exports in display order;
  2. `Session.displayed_in_order`  -- the lists of containers and units.
-/
import ApiReference.Proofs.Session
import Mathlib.Data.List.Forall2
import Mathlib.Data.List.Permutation

namespace ApiReference

/-! ## 1. Display order -/

/-- **Exports in display order**: the registered records of the exports, in some order.  Those that are
    no aliases come by their keys, and those with the same key as they are exported. -/
def Store.InDisplayOrder (s : Store) (exports : List (Option SymbolId)) (shown : List MemberHandle) :
    Prop :=
  ∃ entries, List.Forall₂ s.IsMember exports entries ∧ shown.Perm entries ∧
    InOrder (fun a => decide (s.Original a)) (fun a => (s.member a).sortKey) entries shown

theorem Store.Displays.inDisplayOrder {s : Store} {exports : List (Option SymbolId)}
    {entries shown : List MemberHandle} (h : s.Displays true exports entries shown) :
    s.InDisplayOrder exports shown :=
  ⟨entries, h.registered, h.perm, h.order⟩

namespace Session

variable {s : Session} {document : Value} {config : Option Value} {w : Workspace}

/-! ## 2. Sessions -/

/-- **What is displayed stands in order.**  In every session that steps lead to, failed ones included,
    and with sorting on, a filled namespace or module that is no copy lists the exports of its symbol in
    display order, and a filled unit those of its root: by the keys that the members have now. -/
theorem displayed_in_order (hs : Reachable document config s) (hw : s.workspace = some w)
    (hsort : w.context.settings.sort = true) :
    (∀ h, .member h ∈ w.store.filled → w.store.Original h →
      (w.store.member h).kind = .namespace_ ∨ (w.store.member h).kind = .module →
      ∃ symbol shown, (w.store.member h).raw = some symbol ∧
        (w.store.member h).members = some (shown.map some) ∧
        w.store.InDisplayOrder (w.context.facts.symbol symbol).exports shown) ∧
    ∀ u, .unit u ∈ w.store.filled → ∃ position unit root,
      w.store.units.keyAt u.index = some position ∧ w.context.facts.units[position]? = some unit ∧
      unit.symbol = some root ∧
      w.store.InDisplayOrder (w.context.facts.symbol root).exports (w.store.unit u).members := by
  refine ⟨fun h hfilled horiginal hkind => ?_, fun u hfilled => ?_⟩
  · obtain ⟨before, hdone⟩ := hs.done hw hfilled
    obtain ⟨symbol, overloaded, hcompleted⟩ := hdone horiginal
    have hcontainer : (w.store.member h).kind.isContainer = true := by
      rcases hkind with hkind | hkind <;> rw [hkind] <;> rfl
    obtain ⟨entries, shown, hmembers, hdisplays⟩ := hcompleted.exports hcontainer
    rw [hsort] at hdisplays
    exact ⟨symbol, shown, hcompleted.raw, hmembers, hdisplays.inDisplayOrder⟩
  · obtain ⟨before, position, unit, root, entries, hposition, hunit, hroot, hdisplays⟩ :=
      hs.done hw hfilled
    rw [hsort] at hdisplays
    exact ⟨position, unit, root, hposition, hunit, hroot, hdisplays.inDisplayOrder⟩

/-- A namespace that exports a private variable before another one; and the unit of the namespace. -/
def exportsDocument : Value := .map [
  ("units", .list [.map [("name", .str "a"), ("symbol", .str "n")]]),
  ("declarations", .map [
    ("dn", .map [("kind", .str "ModuleDeclaration")]),
    ("dp", .map [("kind", .str "VariableDeclaration"), ("modifiers", .list [.str "Private"])]),
    ("dq", .map [("kind", .str "VariableDeclaration")])]),
  ("symbols", .map [
    ("n", .map [("name", .str "n"), ("flags", .str "NAMESPACE_MODULE"),
      ("declarations", .list [.str "dn"]), ("exports", .list [.str "p", .str "q"])]),
    ("p", .map [("name", .str "p"), ("flags", .str "BLOCK_SCOPED_VARIABLE"), ("parent", .str "n"),
      ("declarations", .list [.str "dp"])]),
    ("q", .map [("name", .str "q"), ("flags", .str "BLOCK_SCOPED_VARIABLE"), ("parent", .str "n"),
      ("declarations", .list [.str "dq"])])])]

/-- The namespace sorts its members while the private one is still being filled, which asked for it as
    its parent; that one comes last all the same. -/
theorem displayed_in_order_open : ∃ s w, Reachable exportsDocument none s ∧ s.workspace = some w ∧
    w.context.settings.sort = true ∧ w.store.Original ⟨1⟩ ∧ (w.store.member ⟨1⟩).kind = .namespace_ ∧
    w.store.filled = [.unit ⟨0⟩, .member ⟨0⟩, .member ⟨1⟩, .member ⟨2⟩, .type ⟨0⟩] ∧
    w.store.IsMember (some ⟨"p"⟩) ⟨0⟩ ∧ w.store.IsMember (some ⟨"q"⟩) ⟨2⟩ ∧
    (w.store.member ⟨1⟩).members = some [some ⟨2⟩, some ⟨0⟩] ∧
    ∃ root, w.store.InDisplayOrder (w.context.facts.symbol root).exports (w.store.unit ⟨0⟩).members := by
  have hcheck : (Session.start exportsDocument none).toOption.any (fun s =>
      s.finds (.unit "a") (fun w => decide (w.context.settings.sort = true ∧
        w.store.copies = [] ∧ (w.store.member ⟨1⟩).kind = .namespace_ ∧
        w.store.filled = [.unit ⟨0⟩, .member ⟨0⟩, .member ⟨1⟩, .member ⟨2⟩, .type ⟨0⟩] ∧
        (w.store.member ⟨1⟩).raw = some ⟨"n"⟩ ∧
        (w.context.facts.symbol ⟨"n"⟩).exports = [some ⟨"p"⟩, some ⟨"q"⟩] ∧
        w.store.members.find? (some ⟨"p"⟩) = some 0 ∧ w.store.members.find? (some ⟨"q"⟩) = some 2 ∧
        keyLe (w.store.member ⟨0⟩).sortKey (w.store.member ⟨2⟩).sortKey = false))) = true := by
    decide +kernel
  obtain ⟨s, w, hs, hw, hfound⟩ := exists_step _ hcheck
  obtain ⟨hsort, hcopies, hkind, hfilled, hraw, hexports, hp, hq, hkeys⟩ := of_decide_eq_true hfound
  have horiginal : ∀ h, w.store.Original h := fun h => .of_nil hcopies
  obtain ⟨hcontainers, hunits⟩ := displayed_in_order hs.reachable hw hsort
  obtain ⟨symbol, shown, hsymbol, hshown, entries, hentries, hperm, horder⟩ :=
    hcontainers ⟨1⟩ (by simp [hfilled]) (horiginal _) (.inl hkind)
  obtain ⟨-, -, root, -, -, -, hunit⟩ := hunits ⟨0⟩ (by simp [hfilled])
  refine ⟨s, w, hs.reachable, hw, hsort, horiginal _, hkind, hfilled, hp, hq, ?_, root, hunit⟩
  cases Option.some.inj (hsymbol.symm.trans hraw)
  rw [hexports] at hentries
  have honly : Relator.RightUnique w.store.IsMember := fun _ _ _ => Store.IsMember.unique
  have hboth : entries = [⟨0⟩, ⟨2⟩] :=
    List.right_unique_forall₂' honly hentries (.cons hp (.cons hq .nil))
  subst hboth
  have hsorted := horder.sorted
  rw [List.filter_eq_self.2 fun a _ => decide_eq_true (horiginal a)] at hsorted
  -- the other order would not be sorted
  rcases List.perm_pair.1 hperm with rfl | rfl
  · rw [List.pairwise_pair, hkeys] at hsorted
    exact nomatch hsorted
  · exact hshown

end Session

end ApiReference
