/-
  Alias links.

  Following a link from node to node ends at a node without a link, or at the first node that is met
  again.  The node it ends at leads nowhere else: it has no link, or it lies on a cycle and the walk
  from it comes back to it first.

  1. `chain_spec`        -- the nodes of a chain follow each other, and why it ends;
  2. `chain_of_cycle`    -- a chain that starts on a cycle goes round it once;
  3. `aliasedSymbol_idem` -- resolving an alias twice is resolving it once;
  4. `Facts.Resolves`    -- the walk that stops at the first symbol it meets again.
-/
import ApiReference.Proofs.Facts.Declared
import Mathlib.Data.List.Chain
import Mathlib.Data.List.Perm.Subperm
import Mathlib.Logic.Relation

namespace ApiReference

/-! ## 1. Chains -/

section Chains

variable {α : Type} [DecidableEq α] {next : α → Option α}

/-- **The nodes of a chain.**  Every node is the successor of the one before; the last has no
    successor, or one that was met before.  All nodes with a successor are in `all`, so the fuel
    lasts as long as it exceeds the number of those not met yet. -/
theorem chain_spec {all : List α} (hall : ∀ x y, next x = some y → x ∈ all) :
    ∀ (n : Nat) (seen : List α) (a : α), seen.Nodup → (∀ x ∈ seen, x ∈ all) → a ∉ seen →
      all.length < n + seen.length →
      ∃ l, chain next n seen a = a :: l ∧ (a :: l).IsChain (fun x y => next x = some y) ∧
        ∀ last, (a :: l).getLast? = some last →
          next last = none ∨ ∃ b, next last = some b ∧ (b ∈ seen ∨ b ∈ a :: l) := by
  intro n
  induction n with
  | zero =>
    intro seen a hnodup hsub _ hn
    -- without fuel more nodes would have been met than there are
    have hle := (List.subperm_of_subset hnodup hsub).length_le
    omega
  | succ n ih =>
    intro seen a hnodup hsub ha hn
    rw [chain, if_neg ha]
    cases hnext : next a with
    | none =>
      refine ⟨[], rfl, List.isChain_singleton a, fun last hlast => ?_⟩
      cases hlast
      exact .inl hnext
    | some b =>
      have hnodup' : (a :: seen).Nodup := List.nodup_cons.2 ⟨ha, hnodup⟩
      have hsub' : ∀ x ∈ a :: seen, x ∈ all := by
        intro x hx
        rcases List.mem_cons.1 hx with rfl | hx
        · exact hall x b hnext
        · exact hsub x hx
      have hle := (List.subperm_of_subset hnodup' hsub').length_le
      rw [List.length_cons] at hle
      by_cases hb : b ∈ a :: seen
      · -- the next node was met before, so the chain is cut here
        have hcut : chain next n (a :: seen) b = [] := by
          cases n with
          | zero => rfl
          | succ n => rw [chain, if_pos hb]
        refine ⟨[], by simp only [hcut], List.isChain_singleton a, fun last hlast => ?_⟩
        cases hlast
        refine .inr ⟨b, hnext, ?_⟩
        rcases List.mem_cons.1 hb with rfl | hb
        · exact .inr List.mem_cons_self
        · exact .inl hb
      · obtain ⟨l, hl, hchain, hend⟩ := ih (a :: seen) b hnodup' hsub' hb
          (by rw [List.length_cons]; omega)
        refine ⟨b :: l, by simp only [hl], List.isChain_cons_cons.2 ⟨hnext, hchain⟩, ?_⟩
        intro last hlast
        rw [List.getLast?_cons_cons] at hlast
        rcases hend last hlast with h | ⟨c, hc, hmem⟩
        · exact .inl h
        · refine .inr ⟨c, hc, ?_⟩
          rcases hmem with hmem | hmem
          · rcases List.mem_cons.1 hmem with rfl | hmem
            · exact .inr List.mem_cons_self
            · exact .inl hmem
          · exact .inr (List.mem_cons_of_mem a hmem)

/-! ## 2. Cycles -/

/-- **A chain along a cycle** goes on to its last node, whose successor was met first. -/
theorem chain_of_cycle {b : α} :
    ∀ (l : List α) (n : Nat) (seen : List α) (a : α),
      (a :: l).IsChain (fun x y => next x = some y) → (a :: l).Nodup → (∀ x ∈ a :: l, x ∉ seen) →
      (∀ last, (a :: l).getLast? = some last → next last = some b) → b ∈ a :: seen →
      l.length < n → chain next n seen a = a :: l := by
  -- the induction is on the nodes ahead, so the fuel and the nodes met so far vary
  intro l
  induction l with
  | nil =>
    intro n seen a _ _ hseen hlast hb hn
    obtain ⟨n, rfl⟩ := Nat.exists_eq_succ_of_ne_zero (Nat.ne_of_gt hn)
    have ha : next a = some b := hlast a rfl
    have hcut : chain next n (a :: seen) b = [] := by
      cases n with
      | zero => rfl
      | succ n => rw [chain, if_pos hb]
    rw [chain, if_neg (hseen a List.mem_cons_self)]
    simp only [ha, hcut]
  | cons c l ih =>
    intro n seen a hchain hnodup hseen hlast hb hn
    obtain ⟨n, rfl⟩ := Nat.exists_eq_succ_of_ne_zero (Nat.ne_of_gt (Nat.zero_lt_of_lt hn))
    obtain ⟨hac, hchain⟩ := List.isChain_cons_cons.1 hchain
    obtain ⟨hanew, hnodup⟩ := List.nodup_cons.1 hnodup
    rw [chain, if_neg (hseen a List.mem_cons_self)]
    simp only [hac]
    rw [ih n (a :: seen) c hchain hnodup ?_ ?_ (List.mem_cons_of_mem c hb)
      (by rw [List.length_cons] at hn; omega)]
    · intro x hx hmem
      rcases List.mem_cons.1 hmem with rfl | hmem
      · exact hanew hx
      · exact hseen x (List.mem_cons_of_mem a hx) hmem
    · intro last h
      exact hlast last (by rw [List.getLast?_cons_cons]; exact h)

end Chains

/-! ## 3. Aliases -/

namespace Facts

variable (f : Facts)

/-- The alias link of a symbol. -/
def aliasLink (s : SymbolId) : Option SymbolId := (f.symbol s).aliasTarget

/-- The declared symbols. -/
def declaredSymbols : List SymbolId := f.symbols.map fun e => ⟨e.1⟩

variable {f}

/-- Only a declared symbol has facts of its own. -/
theorem symbol_eq_empty {s : SymbolId} (h : s ∉ f.declaredSymbols) : f.symbol s = {} := by
  have hnone : f.symbols.lookup s.text = none := by
    cases hl : f.symbols.lookup s.text with
    | none => rfl
    | some facts => exact absurd (List.mem_map.2 ⟨_, lookup_mem hl, rfl⟩) h
  rw [symbol, hnone]
  rfl

theorem mem_declaredSymbols_of_aliasLink {s t : SymbolId} (h : f.aliasLink s = some t) :
    s ∈ f.declaredSymbols := by
  by_contra hs
  rw [aliasLink, symbol_eq_empty hs] at h
  exact nomatch h

/-- The target of an alias is linked from the last node of its chain, or is that node. -/
theorem aliasedSymbol_of_chain {s last : SymbolId} {l : List SymbolId}
    (hl : chain f.aliasLink (f.symbols.length + 1) [] s = l) (hlast : l.getLast? = some last) :
    f.aliasedSymbol s = (f.aliasLink last).getD last := by
  unfold aliasedSymbol
  dsimp only
  rw [show chain (fun t => (f.symbol t).aliasTarget) (f.symbols.length + 1) [] s = l from hl, hlast]
  rfl

/-- **Where an alias leads**: along links from node to node to a last one, which has no link and is
    the target, or has a link back to a node of the chain, which is the target. -/
theorem aliasedSymbol_spec (s : SymbolId) :
    ∃ l last, (s :: l).Nodup ∧ (s :: l).IsChain (fun x y => f.aliasLink x = some y) ∧
      (s :: l).getLast? = some last ∧ l.length ≤ f.symbols.length ∧
      ((f.aliasLink last = none ∧ f.aliasedSymbol s = last) ∨
        (f.aliasLink last = some (f.aliasedSymbol s) ∧ f.aliasedSymbol s ∈ s :: l)) := by
  have hlen : f.declaredSymbols.length = f.symbols.length := List.length_map ..
  have hall : ∀ x y, f.aliasLink x = some y → x ∈ f.declaredSymbols :=
    fun x y h => mem_declaredSymbols_of_aliasLink h
  obtain ⟨l, hl, hchain, hend⟩ := chain_spec hall (f.symbols.length + 1) [] s List.nodup_nil
    (fun x hx => absurd hx List.not_mem_nil) List.not_mem_nil (by rw [List.length_nil]; omega)
  have hnodup : (s :: l).Nodup := hl ▸ (chain_nodup f.aliasLink (f.symbols.length + 1) [] s).1
  have hsub : (s :: l).dropLast ⊆ f.declaredSymbols := by
    intro x hx
    obtain ⟨i, hi, rfl⟩ := List.getElem_of_mem hx
    rw [List.length_dropLast] at hi
    have hrel := (List.isChain_iff_getElem.1 hchain) i (by omega)
    rw [List.getElem_dropLast]
    exact mem_declaredSymbols_of_aliasLink hrel
  have hle := (List.subperm_of_subset (hnodup.sublist (List.dropLast_sublist _)) hsub).length_le
  rw [List.length_dropLast, List.length_cons, hlen] at hle
  obtain ⟨last, hlast⟩ : ∃ last, (s :: l).getLast? = some last :=
    ⟨_, List.getLast?_eq_some_getLast (List.cons_ne_nil s l)⟩
  have htarget : f.aliasedSymbol s = (f.aliasLink last).getD last := aliasedSymbol_of_chain hl hlast
  refine ⟨l, last, hnodup, hchain, hlast, by omega, ?_⟩
  rcases hend last hlast with h | ⟨b, hb, hmem⟩
  · exact .inl ⟨h, by rw [htarget, h]; rfl⟩
  · have hb' : f.aliasedSymbol s = b := by rw [htarget, hb]; rfl
    rw [hb']
    exact .inr ⟨hb, hmem.resolve_left List.not_mem_nil⟩

/-- A symbol without a link is its own target. -/
theorem aliasedSymbol_of_none {s : SymbolId} (h : f.aliasLink s = none) : f.aliasedSymbol s = s := by
  have hc : chain f.aliasLink (f.symbols.length + 1) [] s = [s] := by
    rw [chain, if_neg List.not_mem_nil]
    simp only [h]
  rw [aliasedSymbol_of_chain hc List.getLast?_singleton, h]
  rfl

/-- A symbol on a cycle of links is its own target. -/
theorem aliasedSymbol_of_cycle {s last : SymbolId} {l : List SymbolId} (hnodup : (s :: l).Nodup)
    (hchain : (s :: l).IsChain (fun x y => f.aliasLink x = some y))
    (hlast : (s :: l).getLast? = some last) (hback : f.aliasLink last = some s)
    (hlen : l.length ≤ f.symbols.length) : f.aliasedSymbol s = s := by
  have hc : chain f.aliasLink (f.symbols.length + 1) [] s = s :: l := by
    refine chain_of_cycle (b := s) l _ [] s hchain hnodup (fun x _ => List.not_mem_nil) ?_
      List.mem_cons_self (by omega)
    intro x hx
    rw [hlast] at hx
    cases hx
    exact hback
  rw [aliasedSymbol_of_chain hc hlast, hback]
  rfl

/-- **The target of an alias leads nowhere else**: it has no link, or the links from it come back to
    it first. -/
theorem aliasedSymbol_cycle (s : SymbolId) :
    f.aliasLink (f.aliasedSymbol s) = none ∨
    ∃ l last, (f.aliasedSymbol s :: l).Nodup ∧
      (f.aliasedSymbol s :: l).IsChain (fun x y => f.aliasLink x = some y) ∧
      (f.aliasedSymbol s :: l).getLast? = some last ∧ f.aliasLink last = some (f.aliasedSymbol s) ∧
      l.length ≤ f.symbols.length := by
  obtain ⟨l, last, hnodup, hchain, hlast, hlen, h⟩ := aliasedSymbol_spec (f := f) s
  rcases h with ⟨hnone, hs⟩ | ⟨hback, hmem⟩
  · exact .inl (hs ▸ hnone)
  · -- the part of the chain from the target on is the cycle
    obtain ⟨before, after, hsplit⟩ := List.append_of_mem hmem
    rw [hsplit] at hnodup hchain hlast
    have hlength : before.length + (after.length + 1) = l.length + 1 := by
      rw [show l.length + 1 = (s :: l).length from rfl, hsplit, List.length_append, List.length_cons]
    rw [List.getLast?_append_of_ne_nil _ (List.cons_ne_nil _ _)] at hlast
    exact .inr ⟨after, last, hnodup.sublist (List.sublist_append_right _ _), hchain.right_of_append,
      hlast, hback, by omega⟩

/-- **Resolving an alias twice is resolving it once.** -/
theorem aliasedSymbol_idem (s : SymbolId) :
    f.aliasedSymbol (f.aliasedSymbol s) = f.aliasedSymbol s := by
  rcases aliasedSymbol_cycle (f := f) s with hnone | ⟨l, last, hnodup, hchain, hlast, hback, hlen⟩
  · exact aliasedSymbol_of_none hnone
  · exact aliasedSymbol_of_cycle hnodup hchain hlast hback hlen

section Declared

variable (hf : f.Closed)
include hf

/-- Everything on a chain of alias links from a declared symbol is declared. -/
theorem aliasedSymbol_declared {s : SymbolId} (hs : s.text ∈ f.symbolIds) :
    (f.aliasedSymbol s).text ∈ f.symbolIds := by
  obtain ⟨l, last, _, hchain, hlast, _, h⟩ := aliasedSymbol_spec (f := f) s
  have hall : ∀ x ∈ s :: l, x.text ∈ f.symbolIds := by
    intro x hx
    obtain ⟨i, hi, rfl⟩ := List.getElem_of_mem hx
    cases i with
    | zero => exact hs
    | succ i =>
      have hrel := (List.isChain_iff_getElem.1 hchain) i hi
      exact (hf.symbol _).aliasTarget _ hrel
  rcases h with ⟨_, hs'⟩ | ⟨_, hmem⟩
  · rw [hs']
    exact hall last (List.mem_of_getLast? hlast)
  · exact hall _ hmem

/-- The declaring parent of a symbol is declared. -/
theorem parentOf_declared {s p : SymbolId} (h : f.parentOf s = some p) : p.text ∈ f.symbolIds := by
  unfold parentOf at h
  split at h
  · rename_i q hq
    split at h
    · exact nomatch h
    · cases h
      exact (hf.symbol s).parent _ hq
  · exact nomatch h


end Declared

/-! ## 4. The walk -/

/-- One symbol is an alias of another. -/
def AliasOf (f : Facts) (s t : SymbolId) : Prop := f.aliasLink s = some t

/-- **The walk along alias links**, with the symbols that it left behind: it stops at a symbol without a
    link, or at one that it has left before, and follows the link of any other. -/
inductive Resolves (f : Facts) : List SymbolId → SymbolId → SymbolId → Prop where
  | stop {seen : List SymbolId} {s : SymbolId} : f.aliasLink s = none ∨ s ∈ seen → Resolves f seen s s
  | follow {seen : List SymbolId} {s next t : SymbolId} : s ∉ seen → f.AliasOf s next →
      Resolves f (s :: seen) next t → Resolves f seen s t

namespace Resolves

variable {seen : List SymbolId} {s t t' : SymbolId}

/-- The walk has one end. -/
theorem unique (h : f.Resolves seen s t) (h' : f.Resolves seen s t') : t = t' := by
  induction h with
  | stop hend =>
    cases h' with
    | stop => rfl
    | follow hnew hlink =>
      -- where the walk stops it cannot go on
      rcases hend with hnone | hmem
      · exact nomatch hnone.symm.trans hlink
      · exact absurd hmem hnew
  | follow hnew hlink _ ih =>
    cases h' with
    | stop hend =>
      rcases hend with hnone | hmem
      · exact nomatch hnone.symm.trans hlink
      · exact absurd hmem hnew
    | follow _ hlink' hrest =>
      cases Option.some.inj (hlink.symm.trans hlink')
      exact ih hrest

/-- **The walk along a chain** of symbols that it has not left yet: it ends at the last of them, or
    where the link of the last one leads back. -/
theorem of_chain {last : SymbolId} {l : List SymbolId} (hnodup : (s :: l).Nodup)
    (hnew : ∀ x ∈ s :: l, x ∉ seen) (hchain : (s :: l).IsChain f.AliasOf)
    (hlast : (s :: l).getLast? = some last)
    (hend : (f.aliasLink last = none ∧ t = last) ∨ (f.AliasOf last t ∧ (t ∈ s :: l ∨ t ∈ seen))) :
    f.Resolves seen s t := by
  induction l generalizing seen s with
  | nil =>
    cases hlast
    rcases hend with ⟨hnone, rfl⟩ | ⟨hback, hmem⟩
    · exact .stop (.inl hnone)
    · refine .follow (hnew s List.mem_cons_self) hback (.stop (.inr ?_))
      rcases hmem with hmem | hmem
      · exact List.mem_singleton.1 hmem ▸ List.mem_cons_self
      · exact List.mem_cons_of_mem s hmem
  | cons next l ih =>
    obtain ⟨hlink, hchain⟩ := List.isChain_cons_cons.1 hchain
    obtain ⟨hs, hnodup⟩ := List.nodup_cons.1 hnodup
    rw [List.getLast?_cons_cons] at hlast
    refine .follow (hnew s List.mem_cons_self) hlink (ih hnodup ?_ hchain hlast ?_)
    · intro x hx hmem
      rcases List.mem_cons.1 hmem with rfl | hmem
      · exact hs hx
      · exact hnew x (List.mem_cons_of_mem s hx) hmem
    · refine hend.imp_right (And.imp_right fun hmem => ?_)
      -- the first symbol is left behind now
      rcases hmem with hmem | hmem
      · rcases List.mem_cons.1 hmem with rfl | hmem
        · exact .inr List.mem_cons_self
        · exact .inl hmem
      · exact .inr (List.mem_cons_of_mem s hmem)

end Resolves

/-- **The walk from a symbol ends, and it ends at its target.** -/
theorem resolves_iff (f : Facts) (s t : SymbolId) : f.Resolves [] s t ↔ t = f.aliasedSymbol s := by
  have hends : f.Resolves [] s (f.aliasedSymbol s) := by
    obtain ⟨l, last, hnodup, hchain, hlast, -, h⟩ := aliasedSymbol_spec (f := f) s
    refine .of_chain hnodup (fun x _ => List.not_mem_nil) hchain hlast ?_
    exact h.imp id (And.imp_right .inl)
  constructor
  · exact fun h => h.unique hends
  · rintro rfl
    exact hends

/-- The target of an alias has no link, or it lies on a cycle of links. -/
theorem aliasedSymbol_settled (f : Facts) (s : SymbolId) :
    f.aliasLink (f.aliasedSymbol s) = none ∨
      Relation.TransGen f.AliasOf (f.aliasedSymbol s) (f.aliasedSymbol s) := by
  refine (aliasedSymbol_cycle s).imp id fun ⟨l, last, _, hchain, hlast, hback, _⟩ => ?_
  have hend : (f.aliasedSymbol s :: l).getLast (List.cons_ne_nil _ _) = last :=
    Option.some.inj ((List.getLast?_eq_some_getLast _).symm.trans hlast)
  exact .tail' (List.relationReflTransGen_of_exists_isChain_cons l hchain hend) hback

end Facts

end ApiReference
