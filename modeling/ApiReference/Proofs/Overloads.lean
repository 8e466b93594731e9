/-
  How the declarations of a function become one record with overloads.

  One declaration documents the function.  From three declarations on, the others that have parameters
  become records of their own, in source order, and the function takes over of the last of these what
  its own declaration leaves undocumented, whether or not they are enough to be listed.

  1. `IsCanonical`              -- the declaration that documents a function;
  2. `fails_consolidate`        -- where a function fails;
  3. `overloads_consolidated`   -- a function with all its declarations.
-/
import ApiReference.Proofs.Build.Requests

namespace ApiReference

namespace Build

/-! ## 1. The canonical declaration -/

/-- **The first of a list that satisfies `p`**, or what `otherwise` says where none does. -/
def Chosen {α : Type} (p : α → Bool) (xs : List α) (otherwise : α → Prop) (x : α) : Prop :=
  (∃ before after, xs = before ++ x :: after ∧ p x = true ∧ ∀ y ∈ before, p y = false) ∨
    (∀ y ∈ xs, p y = false) ∧ otherwise x

/-- **The declaration that documents a function**: of at most two the first that is no implementation;
    of more the first implementation, and without one the first that can have a body and is not ambient.
    Where there is none of these it is the first of all. -/
def IsCanonical (cx : Context) (ds : List DeclarationId) (d : DeclarationId) : Prop :=
  let facts := cx.facts.declaration
  (ds.length ≤ 2 → Chosen (fun x => !(facts x).implementation) ds (ds.head? = some ·) d) ∧
  (3 ≤ ds.length → Chosen (fun x => (facts x).implementation) ds
    (Chosen (fun x => isConcreteHere (facts x)) ds (ds.head? = some ·)) d)

/-- A search finds what is chosen. -/
theorem chosen_of_find? {α : Type} {p : α → Bool} {xs : List α} {otherwise : α → Prop} {x : α}
    (hfound : ∀ y, xs.find? p = some y → y = x) (hnone : xs.find? p = none → otherwise x) :
    Chosen p xs otherwise x := by
  cases hfind : xs.find? p with
  | none =>
    refine .inr ⟨fun y hy => ?_, hnone hfind⟩
    exact Bool.not_eq_true _ ▸ List.find?_eq_none.1 hfind y hy
  | some y =>
    cases hfound y hfind
    obtain ⟨hp, before, after, hsplit, hbefore⟩ := List.find?_eq_some_iff_append.1 hfind
    exact .inl ⟨before, after, hsplit, hp, fun z hz => Bool.not_eq_true' _ ▸ hbefore z hz⟩

theorem isCanonical_pickCanonical (cx : Context) (first : DeclarationId) (rest : List DeclarationId) :
    IsCanonical cx (first :: rest) (pickCanonical cx first rest) := by
  unfold pickCanonical
  refine ⟨fun hfew => ?_, fun hmany => ?_⟩
  · dsimp only
    rw [if_pos (show (first :: rest).length < overloadThreshold from Nat.lt_succ_of_le hfew)]
    refine chosen_of_find? (fun y hy => ?_) fun hnone => ?_
    · rw [hy]
      rfl
    · rw [hnone]
      rfl
  · dsimp only
    rw [if_neg (show ¬ (first :: rest).length < overloadThreshold from Nat.not_lt.2 hmany)]
    refine chosen_of_find? (fun y hy => ?_) fun hnone => chosen_of_find? (fun y hy => ?_) fun hnone' => ?_
    · rw [hy]
    · rw [hnone, hy]
      rfl
    · rw [hnone, hnone']
      rfl

/-! ## 2. Where a function fails -/

section Failures

variable {cx : Context} {r : Requests} {symbol : SymbolId} {f : Fault} {s s' : Store}

/-- **Overloads fail only where the filling of one of them does.** -/
theorem fails_overloads {canonical : DeclarationId} {ds : List DeclarationId}
    (hrun : (overloads cx r symbol canonical ds).run s = (.error f, s')) :
    ∃ d ∈ overloading cx canonical ds, ∃ o t,
      (fillSignature cx r symbol d o).run t = (.error f, s') := by
  induction ds generalizing s with
  | nil => cases hrun
  | cons d ds ih =>
    unfold overloads at hrun
    by_cases hskip : (d = canonical || !(cx.facts.declaration d).hasParameters) = true
    · rw [if_pos hskip] at hrun
      rw [overloading_cons_of_skipped hskip]
      exact ih hrun
    · rw [if_neg hskip] at hrun
      rw [overloading_cons hskip]
      have hnew : newMember.run s = (.ok ⟨s.members.size⟩, s.addMember none) := rfl
      rw [run_bind_ok hnew] at hrun
      -- A new record is made and completed without fail, so the fault is the filling's or the rest's.
      rcases hfill : (fillSignature cx r symbol d ⟨s.members.size⟩).run (s.addMember none)
        with ⟨result, s₁⟩
      cases result with
      | error g =>
        rw [run_bind_error hfill] at hrun
        cases hrun
        exact ⟨d, List.mem_cons_self, _, _, hfill⟩
      | ok a =>
        have hcomplete : (complete (.member ⟨s.members.size⟩)).run s₁ =
            (.ok ⟨⟩, s₁.completed (.member ⟨s.members.size⟩)) := rfl
        rw [run_bind_ok hfill, run_bind_ok hcomplete] at hrun
        rcases hrest : (overloads cx r symbol canonical ds).run
          (s₁.completed (.member ⟨s.members.size⟩)) with ⟨result', s₂⟩
        cases result' with
        | error g =>
          rw [run_bind_error hrest] at hrun
          cases hrun
          obtain ⟨x, hx, hfails⟩ := ih hrest
          exact ⟨x, List.mem_cons_of_mem d hx, hfails⟩
        | ok os =>
          rw [run_bind_ok hrest] at hrun
          cases hrun

/-- Taking over what overloads add does not fail. -/
theorem attachOverloads_ok (h : MemberHandle) (os : List MemberHandle) (s : Store) :
    ∃ s', (attachOverloads h os).run s = (.ok ⟨⟩, s') := by
  unfold attachOverloads
  cases os.getLast? with
  | none => split <;> exact ⟨_, rfl⟩
  | some last => split <;> exact ⟨_, rfl⟩

/-- With a declaration, the canonical one comes first, and the others from three on. -/
theorem consolidate_cons (cx : Context) (r : Requests) (symbol : SymbolId) (first : DeclarationId)
    (rest : List DeclarationId) (h : MemberHandle) : consolidate cx r symbol (first :: rest) h = (do
      fillSignature cx r symbol (pickCanonical cx first rest) h
      if (first :: rest).length < overloadThreshold then pure ()
      else attachOverloads h (← overloads cx r symbol (pickCanonical cx first rest) (first :: rest))) := rfl

/-- **A function fails only where the filling from one of its declarations does.** -/
theorem fails_consolidate {first : DeclarationId} {rest : List DeclarationId} {h : MemberHandle}
    (hrun : (consolidate cx r symbol (first :: rest) h).run s = (.error f, s')) :
    ∃ d ∈ pickCanonical cx first rest :: overloading cx (pickCanonical cx first rest) (first :: rest),
      ∃ o t, (fillSignature cx r symbol d o).run t = (.error f, s') := by
  rw [consolidate_cons] at hrun
  rcases hfill : (fillSignature cx r symbol (pickCanonical cx first rest) h).run s with ⟨result, s₁⟩
  cases result with
  | error g =>
    rw [run_bind_error hfill] at hrun
    cases hrun
    exact ⟨_, List.mem_cons_self, _, _, hfill⟩
  | ok a =>
    rw [run_bind_ok hfill] at hrun
    split at hrun
    · cases hrun
    · rcases hothers : (overloads cx r symbol (pickCanonical cx first rest) (first :: rest)).run s₁
        with ⟨result', s₂⟩
      cases result' with
      | error g =>
        rw [run_bind_error hothers] at hrun
        cases hrun
        obtain ⟨d, hd, hfails⟩ := fails_overloads hothers
        exact ⟨d, List.mem_cons_of_mem _ hd, hfails⟩
      | ok os =>
        obtain ⟨s₃, hattach⟩ := attachOverloads_ok h os s₂
        rw [run_bind_ok hothers, hattach] at hrun
        cases hrun

end Failures

/-! ## 3. A function with all its declarations -/

section Consolidation

variable {cx : Context} {r : Requests} {n : Nat} {c : Scope} {s : Store} {h : MemberHandle}

/-- **What the declarations of a function make of its record**, step by step. -/
theorem runs_consolidated (hf : cx.facts.Closed) (hr : r.Lawful cx n) {symbol : SymbolId}
    (hb : c.Begun s h symbol) (first : DeclarationId) (rest : List DeclarationId) :
    Runs cx n c s (consolidate cx r symbol (first :: rest) h) fun _ s' => ∃ s₁,
      (fillSignature cx r symbol (pickCanonical cx first rest) h).run s = (.ok ⟨⟩, s₁) ∧
      (s₁.member h).overloads = none ∧ ((first :: rest).length ≤ 2 → s' = s₁) ∧
      (3 ≤ (first :: rest).length → ∃ os,
        List.Forall₂ (s'.MadeFrom cx r symbol)
          (overloading cx (pickCanonical cx first rest) (first :: rest)) os ∧
        (∀ o ∈ os, s₁.members.size ≤ o.index) ∧ (os.Pairwise fun a b => a.index < b.index) ∧
        s'.member h = withOverloads s' os (s₁.member h)) := by
  have hm := hb.own
  rw [consolidate_cons]
  refine (runs_fillSignature hf hr hb _).ran.bind fun _ s₁ _ ⟨hrun, hd⟩ => ?_
  have halone : (s₁.member h).overloads = none := by
    obtain ⟨_, _, hbased⟩ := hd.based
    exact hbased.alone
  refine .branch (fun hfew => .pure ?_) fun hmany => ?_
  · exact ⟨s₁, hrun, halone, fun _ => rfl, fun hmany => absurd hfew (Nat.not_lt.2 hmany)⟩
  refine .sound fun _ hc => ?_
  refine Runs.bind (asks_overloads hf hr hm symbol _ _)
    fun os s₂ ho₂ ⟨hframed, hmade, hnew, hordered⟩ => .sound fun hs₂ _ => ?_
  have hin : ∀ o ∈ os, s₂.HasMember o :=
    forall₂_right (fun _ o hover => hs₂.filledMembers o hover.filled) hmade
  refine (runs_withOverloads hm hin).mono fun _ s₃ ho₃ hown => ?_
  refine ⟨s₁, hrun, halone, fun hfew => absurd (Nat.lt_succ_of_le hfew) hmany,
    fun _ => ⟨os, ?_, hnew, hordered, ?_⟩⟩
  · exact hmade.imp fun _ _ hover => hover.onward ho₃
  · -- The overloads are filled, so what the function takes over from the last is there in the end too.
    have hsame : ∀ o ∈ os, s₃.member o = s₂.member o :=
      forall₂_right (fun _ o hover => ho₃.upholds.member o hover.filled hover.original) hmade
    rw [hown, hframed.member h (hc.member h hm).1]
    unfold withOverloads
    cases hlast : os.getLast? with
    | none => rfl
    | some last =>
      dsimp only
      rw [hsame last (List.mem_of_getLast? hlast)]

/-- **Overloads are consolidated exactly.**  Let a symbol have no record yet, and take any list with at
    least one declaration, repeated ones included, for the record that is registered for it.

    The declaration that documents the record is the canonical one.  With at most two declarations the
    record is what the filling from the canonical one makes of it, without overloads.  With three or more
    there is a new record for each declaration but the canonical one that has parameters, in source
    order, and in the end each of them is still what its own filling made of it.  They are listed if they
    are at least two.  What the filling from the canonical declaration left undocumented is taken over
    from the last of them, also where that is the only one, and nothing else is changed.

    This fails only where the filling from one of these declarations does. -/
theorem overloads_consolidated (hf : cx.facts.Closed) (n : Nat) (hs : s.Sound) {symbol : SymbolId}
    (hnew : s.members.find? (some symbol) = none) (first : DeclarationId) (rest : List DeclarationId) :
    let ds := first :: rest
    let canonical := pickCanonical cx first rest
    let r := requestsWithin cx n
    let h : MemberHandle := ⟨s.members.size⟩
    let begun := s.enter.register (.member (some symbol))
    IsCanonical cx ds canonical ∧
    (∀ s', (consolidate cx r symbol ds h).run begun = (.ok ⟨⟩, s') →
      ∃ s₁, (fillSignature cx r symbol canonical h).run begun = (.ok ⟨⟩, s₁) ∧
        (s₁.member h).overloads = none ∧ (ds.length ≤ 2 → s' = s₁) ∧
        (3 ≤ ds.length → ∃ os,
          List.Forall₂ (s'.MadeFrom cx r symbol) (overloading cx canonical ds) os ∧
          (∀ o ∈ os, s₁.members.size ≤ o.index) ∧ (os.Pairwise fun a b => a.index < b.index) ∧
          s'.member h = withOverloads s' os (s₁.member h))) ∧
    ∀ f s', (consolidate cx r symbol ds h).run begun = (.error f, s') →
      ∃ d ∈ canonical :: overloading cx canonical ds, ∃ o t,
        (fillSignature cx r symbol d o).run t = (.error f, s') := by
  intro ds canonical r h begun
  refine ⟨isCanonical_pickCanonical cx first rest, fun s' hrun => ?_,
    fun f s' hrun => fails_consolidate hrun⟩
  have hbegun : (Scope.ofKey s (Key.member (some symbol))).Begun begun h symbol := begun_register s symbol
  have hposition : (Key.member (some symbol)).position? s = none := hnew
  have hruns := runs_consolidated hf (lawful_requestsWithin hf n) hbegun first rest
  have hends := hruns (hs.register hposition) (Scope.fits_ofKey hs _)
  rw [hrun] at hends
  exact hends.2

end Consolidation

/-- A function with a documented declaration and an implementation without a comment. -/
def signaturesDocument : Value := .map [
  ("symbols", .map [("f", .map [("name", .str "f"), ("flags", .str "FUNCTION"),
    ("declarations", .list [.str "d", .str "i"])])]),
  ("declarations", .map [
    ("d", .map [("signature", .str "x")]),
    ("i", .map [("signature", .str "y"), ("implementation", .bool true)])]),
  ("signatures", .map [
    ("x", .map [("doc", .str "text"), ("returnType", .str "T")]),
    ("y", .map [("returnType", .str "T")])]),
  ("types", .map [("T", .map [("flags", .str "NUMBER")])])]

/-- With the implementation given twice there are three declarations and one overload.  It is not listed,
    and yet documents the function. -/
theorem overloads_consolidated_unlisted : ∃ (cx : Context) (s' s₁ : Store) (o : MemberHandle),
    cx.facts.Closed ∧ ({} : Store).Sound ∧ ({} : Store).members.find? (some ⟨"f"⟩) = none ∧
    (consolidate cx (requestsWithin cx 2) ⟨"f"⟩ [⟨"d"⟩, ⟨"i"⟩, ⟨"i"⟩] ⟨0⟩).run
      (({} : Store).enter.register (.member (some ⟨"f"⟩))) = (.ok ⟨⟩, s') ∧
    IsCanonical cx [⟨"d"⟩, ⟨"i"⟩, ⟨"i"⟩] ⟨"i"⟩ ∧
    (fillSignature cx (requestsWithin cx 2) ⟨"f"⟩ ⟨"i"⟩ ⟨0⟩).run
      (({} : Store).enter.register (.member (some ⟨"f"⟩))) = (.ok ⟨⟩, s₁) ∧
    s'.MadeFrom cx (requestsWithin cx 2) ⟨"f"⟩ ⟨"d"⟩ o ∧ (s'.member ⟨0⟩).overloads = none ∧
    (s'.member ⟨0⟩).docs = (s₁.member ⟨0⟩).docs.backfill (s'.member o).docs ∧
    (s'.member ⟨0⟩).docs.summary = some "text" := by
  have hcheck : (Facts.link signaturesDocument).toOption.any (fun f =>
      let cx : Context := { Context.blank with facts := f }
      let outcome := (consolidate cx (requestsWithin cx 2) ⟨"f"⟩ [⟨"d"⟩, ⟨"i"⟩, ⟨"i"⟩] ⟨0⟩).run
        (({} : Store).enter.register (.member (some ⟨"f"⟩)))
      decide (pickCanonical cx ⟨"d"⟩ [⟨"i"⟩, ⟨"i"⟩] = ⟨"i"⟩ ∧
        overloading cx ⟨"i"⟩ [⟨"d"⟩, ⟨"i"⟩, ⟨"i"⟩] = [⟨"d"⟩] ∧
        outcome.1.toOption.isSome = true ∧ (outcome.2.member ⟨0⟩).docs.summary = some "text")) = true := by
    decide +kernel
  obtain ⟨f, hlink, hfound⟩ := exists_ok_of_any hcheck
  obtain ⟨hpick, hothers, hok, hsummary⟩ := of_decide_eq_true hfound
  let cx : Context := { Context.blank with facts := f }
  have hf : cx.facts.Closed := closed_of_link hlink
  have hnew : ({} : Store).members.find? (some ⟨"f"⟩) = none := Array.findIdx?_empty
  obtain ⟨hcanonical, hends, -⟩ :=
    overloads_consolidated hf 2 Store.Sound.empty hnew ⟨"d"⟩ [⟨"i"⟩, ⟨"i"⟩]
  rw [hpick] at hcanonical hends
  rcases hrun : (consolidate cx (requestsWithin cx 2) ⟨"f"⟩ [⟨"d"⟩, ⟨"i"⟩, ⟨"i"⟩] ⟨0⟩).run
    (({} : Store).enter.register (.member (some ⟨"f"⟩))) with ⟨result, s'⟩
  rw [hrun] at hok hsummary
  cases result with
  | error e => cases hok
  | ok a =>
    obtain ⟨s₁, hfill, halone, -, hmany⟩ := hends s' hrun
    obtain ⟨os, hmade, -, -, hown⟩ := hmany (Nat.le_refl 3)
    rw [hothers] at hmade
    cases hmade with
    | cons hfirst hrest =>
      cases hrest
      refine ⟨cx, s', s₁, _, hf, Store.Sound.empty, hnew, hrun, hcanonical, hfill, hfirst, ?_, ?_,
        hsummary⟩
      · exact (congrArg Member.overloads hown).trans halone
      · exact congrArg Member.docs hown

end Build

end ApiReference
