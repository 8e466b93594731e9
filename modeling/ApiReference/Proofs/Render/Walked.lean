/-
  What a rendering resolves.

  A walk stops at the first conditional record whose branches it needs, and that record lies inside the
  part that is rendered.  Records keep their parts in later stores, so what the tries of one rendering
  resolve, all of it lies inside that part in the store at the end.

  1. `Style.Meets`      -- a walk stops at a conditional record inside its part;
  2. `Frozen.meets`     -- the record is inside it in later stores;
  3. `held_settled`     -- what one rendering resolves, whatever its outcome.
-/
import ApiReference.Proofs.Render.Cycles

namespace ApiReference

/-! ## 1. Stops -/

namespace Layout

variable {manner : Manner} {W : Option TypeHandle → Rendering (List Token)} {cause : Stop}

theorem renderAll_eq_error {ls : List Layout} (h : renderAll manner W ls = .error cause) :
    ∃ l ∈ ls, render manner W l = .error cause := by
  induction ls with
  | nil => exact nomatch h
  | cons l ls ih =>
    rw [renderAll_cons] at h
    cases hl : render manner W l with
    | error e =>
      rw [hl] at h
      cases h
      exact ⟨l, List.mem_cons_self, hl⟩
    | ok tokens =>
      rw [hl] at h
      cases hls : renderAll manner W ls with
      | error e =>
        rw [hls] at h
        cases h
        obtain ⟨x, hx, hrender⟩ := ih hls
        exact ⟨x, List.mem_cons_of_mem l hx, hrender⟩
      | ok rest =>
        rw [hls] at h
        exact nomatch h

/-- A step done with a result does not stop the rendering. -/
theorem eq_error_of_map {α β : Type} {x : Rendering α} {f : α → β}
    (h : (do return f (← x)) = (Except.error cause : Rendering β)) : x = .error cause := by
  cases x with
  | error e =>
    cases h
    rfl
  | ok a => exact nomatch h

/-- **A layout stops where one of its parts or stops does.** -/
theorem stop_or_part {l : Layout} (h : render manner W l = .error cause) :
    .stop cause ∈ l.leaves ∨ ∃ p, .part p ∈ l.leaves ∧ W p = .error cause := by
  induction l with
  | own kind text member => exact nomatch h
  | part p => exact .inr ⟨p, List.mem_cons_self, h⟩
  | stop c =>
    cases h
    exact .inl List.mem_cons_self
  | list joint ls ih =>
    obtain ⟨l, hl, hrender⟩ := renderAll_eq_error (eq_error_of_map h)
    simp only [leaves_list, List.mem_flatMap]
    exact (ih l hl hrender).imp (fun hs => ⟨l, hl, hs⟩) fun ⟨p, hp, hw⟩ => ⟨p, ⟨l, hl, hp⟩, hw⟩
  | swapped first second ihf ihs =>
    simp only [leaves, List.mem_append]
    rw [render_swapped] at h
    cases hsecond : render manner W second with
    | error e =>
      rw [hsecond] at h
      cases h
      exact (ihs hsecond).imp .inr fun ⟨p, hp, hw⟩ => ⟨p, .inr hp, hw⟩
    | ok after =>
      rw [hsecond] at h
      exact (ihf (eq_error_of_map h)).imp .inl fun ⟨p, hp, hw⟩ => ⟨p, .inl hp, hw⟩
  | enclosed l ih => exact ih (eq_error_of_map h)
  | signature l ih => exact ih (eq_error_of_map h)

end Layout

namespace Style

variable {st : Style} {m : Model}

/-- **A conditional record inside a part.** -/
def Meets (st : Style) (m : Model) (p : Option TypeHandle) (h : TypeHandle) : Prop :=
  st.Within m p h ∧ (m.type h).kind = .conditional

/-- **A record stops the walk for branches of its own only.** -/
theorem eq_of_stop {x h : TypeHandle} (hstop : .stop (.unresolved h) ∈ (st.layout m x).leaves) :
    h = x ∧ (m.type x).kind = .conditional := by
  have hown := st.stops_layout (m := m) (h := x)
    (P := fun cause => ∀ y, cause = .unresolved y → y = x ∧ (m.type x).kind = .conditional)
    (fun _ _ he => nomatch he) (fun _ _ he => nomatch he) (fun _ _ _ he => nomatch he)
    fun cause hkind hcause y hy => ?_
  · exact hown _ hstop h rfl
  · subst hy
    unfold branchesOf at hcause
    split at hcause
    · exact nomatch hcause
    · split at hcause
      · cases hcause
        exact ⟨rfl, hkind⟩
      · exact nomatch hcause

/-- **A walk stops at a conditional record inside its part.** -/
theorem meets_of_walk {n : Nat} {active : List TypeHandle} {depth : Nat} {p : Option TypeHandle}
    {h : TypeHandle} (hstop : st.walk m n active depth p = .error (.unresolved h)) : st.Meets m p h := by
  induction n generalizing active depth p with
  | zero => cases hstop
  | succ n ih =>
    cases p with
    | none => cases hstop
    | some x =>
      unfold walk at hstop
      split at hstop
      · cases hstop
      · rw [node_eq] at hstop
        rcases Layout.stop_or_part hstop with hown | ⟨q, hq, hwalk⟩
        · obtain ⟨rfl, hkind⟩ := eq_of_stop hown
          exact ⟨⟨h, rfl, .refl⟩, hkind⟩
        · obtain ⟨⟨y, rfl, hy⟩, hkind⟩ := ih hwalk
          exact ⟨⟨x, rfl, .head hq hy⟩, hkind⟩

end Style

/-! ## 2. Parts of later stores -/

namespace Layout

variable {m m' : Model}

@[simp] theorem leaves_wrapped (p : Option TypeHandle) : (wrapped m p).leaves = [.part p] := by
  unfold wrapped
  cases p with
  | none => rfl
  | some h =>
    dsimp only
    split <;> rfl

/-- Parentheses apart, an operand does not depend on the model. -/
theorem leaves_operand (other : TypeKind) (p : Option TypeHandle) : (operand m other p).leaves =
    .part p :: if p = none then [.stop (.fault .noField)] else [] := by
  unfold operand
  cases p with
  | none => rfl
  | some h =>
    dsimp only
    split <;> rfl

theorem leaves_operands {t t' : TypeExpr} (h : t'.operands = t.operands) :
    (operands m' t').leaves = (operands m t).leaves := by
  unfold operands
  simp only [leaves_list, List.flatMap_map, leaves_operand, h]

/-- An object reads the members that it lists. -/
theorem object_of_members {t t' : TypeExpr} (ht : t'.members = t.members)
    (h : ∀ c, some c ∈ t.members.getD [] → m'.member c = m.member c) : object m' t' = object m t := by
  have hmap : (t.members.getD []).map (objectMember m') = (t.members.getD []).map (objectMember m) := by
    refine List.map_congr_left fun child hchild => ?_
    cases child with
    | none => rfl
    | some c => simp only [objectMember, h c hchild]
  unfold object
  rw [ht]
  cases hchildren : t.members.getD [] with
  | nil => rfl
  | cons child children =>
    rw [hchildren] at hmap
    simp only [hmap]

end Layout

namespace Style

variable {st : Style} {m : Model}

/-- A name has no parts. -/
theorem not_part_nameLayout (t : TypeExpr) (q : Option TypeHandle) :
    .part q ∉ (st.nameLayout m t).leaves := by
  unfold nameLayout
  split <;> exact fun h => nomatch List.mem_singleton.1 h

/-- The parts before the branches, and the branches where they are resolved. -/
theorem part_conditional {x : TypeHandle} {t : TypeExpr} {q : Option TypeHandle} :
    .part q ∈ (Layout.conditional x t).leaves ↔ q = t.checkType ∨ q = t.extendsType ∨
      ∃ pair, branchesOf x t = .ok pair ∧ (q = pair.1 ∨ q = pair.2) := by
  unfold Layout.conditional
  cases branchesOf x t with
  | ok pair => simp [Layout.seq, Layout.leaves_list, Layout.leaves, Layout.plain, Layout.punct]
  | error cause => simp [Layout.seq, Layout.leaves_list, Layout.leaves, Layout.plain, Layout.punct]

end Style

namespace Store

variable {s s' : Store} {st : Style}

/-- **A record keeps its parts.** -/
theorem Frozen.hasPart (hfrozen : s.Frozen s') (hs : s.Sound) {x : TypeHandle} (hx : s.HasType x)
    {q : Option TypeHandle} (hq : st.HasPart s.toModel x q) : st.HasPart s'.toModel x q := by
  have hlater := hfrozen.type x hx
  have hmember : ∀ c, some c ∈ (s.type x).members.getD [] → s'.member c = s.member c := fun c hc =>
    hfrozen.member c (forall_getD (hs.type x).members (some c) hc c rfl)
  have hbranches := Style.lasts_branchesOf x hlater
  have hnone : ∀ (m : Model) (t : TypeExpr), .part q ∉ (st.nameLayout m t).leaves :=
    fun m t => st.not_part_nameLayout t q
  unfold Style.HasPart Style.layout at hq ⊢
  obtain ⟨e, r, hfields⟩ : ∃ e r, s'.type x = { s.type x with expanded := e, resolved := r } :=
    ⟨_, _, hlater.fields⟩
  rw [hfields] at hbranches ⊢
  generalize s.type x = t at *
  cases hk : t.kind with
  | conditional =>
    simp only [hk] at hq ⊢
    refine Style.part_conditional.2 ((Style.part_conditional.1 hq).imp_right fun h => h.imp_right ?_)
    rintro ⟨pair, hpair, he⟩
    exact ⟨pair, hbranches pair hpair, he⟩
  | union =>
    simp only [hk] at hq ⊢
    rwa [Layout.leaves_operands (m := s.toModel) (t := t)]
    rfl
  | intersection =>
    simp only [hk] at hq ⊢
    rwa [Layout.leaves_operands (m := s.toModel) (t := t)]
    rfl
  | anonymousObject =>
    simp only [hk] at hq ⊢
    exact (Layout.object_of_members rfl hmember).symm ▸ hq
  | enumMemberRef =>
    -- an enum member is shown by names, which have no parts
    simp only [hk] at hq
    exfalso
    split at hq
    · exact hnone _ _ hq
    · simp [Layout.seq, Layout.leaves_list, Layout.leaves, Layout.punct, Layout.plain, hnone] at hq
  | _ =>
    -- the other kinds have their parts in fields that stay as they are
    simp only [hk] at hq ⊢
    first
      | exact hq
      | exact absurd hq (hnone _ _)
      | cases List.mem_singleton.1 hq
      | simpa [Layout.seq, Layout.leaves_list, Layout.leaves, hnone] using hq

/-- **What is inside a part stays inside it.** -/
theorem Frozen.within (hfrozen : s.Frozen s') (hs : s.Sound) {p : Option TypeHandle} {x : TypeHandle}
    (h : st.Within s.toModel p x) : st.Within s'.toModel p x := by
  obtain ⟨root, rfl, hpath⟩ := h
  have hstep : st.Step s.toModel ≤ st.Step s'.toModel := fun a b hab =>
    hfrozen.hasPart hs (Style.lt_size_of_part hab) hab
  exact ⟨root, rfl, Relation.ReflTransGen.mono hstep _ _ hpath⟩

theorem Frozen.meets (hfrozen : s.Frozen s') (hs : s.Sound) {p : Option TypeHandle} {x : TypeHandle}
    (h : st.Meets s.toModel p x) : st.Meets s'.toModel p x := by
  have hin : s.HasType x := by
    by_contra hout
    have hempty : s.type x = {} := Registry.recordAt_of_size_le (Nat.not_lt.1 hout)
    have hkind := h.2
    rw [hempty] at hkind
    exact nomatch hkind
  refine ⟨hfrozen.within hs h.1, ?_⟩
  rw [(hfrozen.type x hin).fields]
  exact h.2

end Store

/-! ## 3. Renderings -/

namespace Style

variable {st : Style} {m : Model} {p : Option TypeHandle} {h : TypeHandle}

theorem meets_of_tokens (hstop : st.tokens m p = .error (.unresolved h)) : st.Meets m p h :=
  meets_of_walk hstop

theorem meets_of_text (hstop : st.text m p = .error (.unresolved h)) : st.Meets m p h := by
  unfold text at hstop
  cases htokens : st.tokens m p with
  | error cause =>
    rw [htokens] at hstop
    cases hstop
    exact meets_of_tokens htokens
  | ok tokens =>
    rw [htokens] at hstop
    change Rendering.orFault (Token.visibleText tokens) = _ at hstop
    unfold Rendering.orFault at hstop
    split at hstop <;> exact nomatch hstop

end Style

namespace Build

variable {cx : Context} {st : Style} {p : Option TypeHandle} {α : Type} {render : Model → Rendering α}

/-- **The tries of a rendering resolve what they stop at**, all of it inside the part. -/
theorem held_settledWithin (hf : cx.facts.Closed)
    (hrender : ∀ m h, render m = .error (.unresolved h) → st.Meets m p h) (n : Nat) {s : Store}
    (hs : s.AtRest cx) : s.Held (.branches (st.Meets ((settledWithin cx render n).run s).2.toModel p))
      ((settledWithin cx render n).run s).2 := by
  induction n generalizing s with
  | zero => exact .refl _ s
  | succ n ih =>
    rw [settledWithin, run_get]
    cases hr : render s.toModel with
    | ok a => exact .refl _ s
    | error cause =>
      cases cause with
      | fault f => exact .refl _ s
      | unresolved h =>
        dsimp only
        -- one try resolves the record that it stopped at
        have hbetween : Between cx (.branches (· = h)) True s (branches cx h) fun _ _ => True :=
          between_branches (fun _ => trivial) hf fun _ => rfl
        obtain ⟨⟨hs₁, hheld⟩, -⟩ := hbetween hs
        have hstop : ∀ s', s.Frozen s' →
            (Demand.branches (· = h)).Within (.branches (st.Meets s'.toModel p)) := by
          refine fun s' hfrozen => ⟨fun memo x hx => ?_, id⟩
          cases memo with
          | expansion e => exact hx.elim
          | branches pair =>
            cases (hx : x = h)
            exact hfrozen.meets hs.sound (hrender _ _ hr)
        rcases hrun : (branches cx h).run s with ⟨result, s₁⟩
        rw [hrun] at hs₁ hheld
        cases result with
        | error f =>
          rw [run_bind_error hrun]
          exact hheld.mono (hstop s₁ hheld.toFrozen)
        | ok pair =>
          rw [run_bind_ok hrun]
          have hrest := ih hs₁
          exact (hheld.mono (hstop _ (hheld.toFrozen.trans hrest.toFrozen))).trans hrest

theorem held_settled (hf : cx.facts.Closed)
    (hrender : ∀ m h, render m = .error (.unresolved h) → st.Meets m p h) {s : Store}
    (hs : s.AtRest cx) : s.Held (.branches (st.Meets ((settled cx render).run s).2.toModel p))
      ((settled cx render).run s).2 := by
  rw [settled, run_get]
  exact held_settledWithin hf hrender _ hs

end Build

end ApiReference
