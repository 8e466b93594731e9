/-
  Aliases.

  Links between aliases may form any graph: chains, chains that join, chains into a cycle, a symbol that
  is linked to itself.  Resolving an alias ends on each, and where it ends, resolving changes nothing
  more.  So the record that an alias is copied from is one that no alias is copied onto, and the order in
  which copies are made does not matter to it.

  1. `aliases_resolved` -- the walk along links, and the copies of a session;
  2. a link into a cycle.
-/
import ApiReference.Proofs.Session

namespace ApiReference.Session

/-! ## 1. Aliases and their copies -/

/-- **The copies of a session**, also before the first use. -/
theorem Valid.aliased {s : Session} (hs : s.Valid) : s.store.Aliased s.facts :=
  hs.of_rest (P := fun f st => st.Aliased f) .empty fun _ _ hrest => hrest.aliased

/-- **Resolving an alias is a projection, and what an alias is copied from is no copy.**  From every symbol
    the walk that follows links, until there is none or a symbol comes up again, ends, and it ends at the
    target of the symbol.  The target has no link, or it lies on a cycle of links; and it is its own
    target.  In every session over such facts, failed requests included, a copy is made under another
    symbol exactly when it is made onto the record of that symbol; it is then made from the record of the
    target, onto which nothing was ever copied. -/
theorem aliases_resolved (f : Facts) :
    (∀ s t, f.Resolves [] s t ↔ t = f.aliasedSymbol s) ∧
    (∀ s, f.aliasLink (f.aliasedSymbol s) = none ∨
      Relation.TransGen f.AliasOf (f.aliasedSymbol s) (f.aliasedSymbol s)) ∧
    (∀ s, f.aliasedSymbol (f.aliasedSymbol s) = f.aliasedSymbol s) ∧
    ∀ document config session, Reachable document config session → session.facts = f →
      ∀ d ∈ session.store.copies, ∀ symbol,
        (d.adjust = .withRaw symbol ↔ session.store.IsMember (some symbol) d.target) ∧
        (d.adjust = .withRaw symbol → session.store.IsMember (some (f.aliasedSymbol symbol)) d.source ∧
          session.store.Original d.source) := by
  refine ⟨f.resolves_iff, f.aliasedSymbol_settled, Facts.aliasedSymbol_idem, ?_⟩
  rintro document config session hs rfl d hd symbol
  have haliased := hs.valid.aliased
  refine ⟨⟨fun hadjust => ?_, fun htarget => ?_⟩, fun hadjust => ?_⟩
  · exact (haliased.ofAlias_of_adjust hd hadjust).target
  · exact (haliased.ofAlias_of_target hd htarget).adjust
  · have halias := haliased.ofAlias_of_adjust hd hadjust
    exact ⟨halias.source, haliased.original_source halias⟩

/-! ## 2. A link into a cycle -/

/-- An alias of one of two symbols that are linked to each other. -/
def tailedCycleDocument : Value := .map [
  ("declarations", .map [("e", .map [])]),
  ("symbols", .map [
    ("x", .map [("name", .str "x"), ("flags", .str "ALIAS"), ("declarations", .list [.str "e"]),
      ("aliasTarget", .str "y")]),
    ("y", .map [("name", .str "y"), ("flags", .str "ALIAS"), ("declarations", .list [.str "e"]),
      ("aliasTarget", .str "z")]),
    ("z", .map [("name", .str "z"), ("flags", .str "ALIAS"), ("declarations", .list [.str "e"]),
      ("aliasTarget", .str "y")])])]

/-- The alias is copied from the symbol on the cycle that it is linked to, and that one from nothing. -/
theorem aliases_resolved_tailed : ∃ s, Reachable tailedCycleDocument none s ∧
    s.facts.Resolves [] ⟨"x"⟩ ⟨"y"⟩ ∧ Relation.TransGen s.facts.AliasOf ⟨"y"⟩ ⟨"y"⟩ ∧
    s.facts.aliasedSymbol ⟨"y"⟩ = ⟨"y"⟩ ∧ s.store.copies = [⟨⟨1⟩, ⟨0⟩, .withRaw ⟨"x"⟩⟩] ∧
    s.store.IsMember (some ⟨"x"⟩) ⟨0⟩ ∧ s.store.IsMember (some ⟨"y"⟩) ⟨1⟩ ∧ s.store.Original ⟨1⟩ := by
  have hcheck : (Session.start tailedCycleDocument none).toOption.any (fun s =>
      let after := ((step (.request (.member (.symbol "x")))).run s).2
      decide (after.store.copies = [⟨⟨1⟩, ⟨0⟩, .withRaw ⟨"x"⟩⟩] ∧
        after.facts.aliasLink ⟨"y"⟩ ≠ none ∧ after.facts.aliasedSymbol ⟨"x"⟩ = ⟨"y"⟩)) = true := by
    decide +kernel
  obtain ⟨s, hstart, hs⟩ := exists_start hcheck
  obtain ⟨hcopies, hlink, htarget⟩ := of_decide_eq_true hs
  have hreach : Reachable tailedCycleDocument none _ :=
    .step (.request (.member (.symbol "x"))) (.start hstart)
  obtain ⟨hwalk, hsettled, hidem, hcopied⟩ := aliases_resolved
    ((step (.request (.member (.symbol "x")))).run s).2.facts
  have hd : (⟨⟨1⟩, ⟨0⟩, .withRaw ⟨"x"⟩⟩ : Copy) ∈
      ((step (.request (.member (.symbol "x")))).run s).2.store.copies := by
    rw [hcopies]
    exact List.mem_cons_self
  obtain ⟨honto, hfrom⟩ := hcopied _ _ _ hreach rfl _ hd ⟨"x"⟩
  obtain ⟨hsource, horiginal⟩ := hfrom rfl
  rw [htarget] at hsource
  have hcycle := hsettled ⟨"x"⟩
  have hfixed := hidem ⟨"x"⟩
  rw [htarget] at hcycle hfixed
  exact ⟨_, hreach, (hwalk _ _).2 htarget.symm, hcycle.resolve_left hlink, hfixed, hcopies,
    honto.1 rfl, hsource, horiginal⟩

end ApiReference.Session
