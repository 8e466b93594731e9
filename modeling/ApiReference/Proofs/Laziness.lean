/-
  Nothing is worked out before it is asked for.

  An alias is expanded only by a step that asks for its expansion, and the branches of a conditional
  type are resolved only by a step that shows records or asks for the branches.  So records that refer
  to each other through aliases are built, shown and grouped without ever being expanded.

  1. `Step.Expands`, `Step.Resolves`  -- the steps that work something out;
  2. `ReachedBy`         -- runs of some steps only;
  3. `TypeChoice.Meets`  -- the conditional records inside a type that is shown;
  4. `Store.ResolvesOnly` -- what the rendering of a type leaves as it was;
  5. `Session.worked_out_on_demand`.
-/
import ApiReference.Proofs.Render.Walked
import ApiReference.Proofs.Session

namespace ApiReference

/-! ## 1. Steps -/

namespace Step

/-- The step asks what an alias stands for. -/
def Expands : Step → Prop
  | .request (.expand _) | .request (.alias_ _) => True
  | _ => False

/-- The step shows records, or asks for branches. -/
def Resolves : Step → Prop
  | .request (.render _) | .request (.text _) | .request (.dump _) | .request (.branches _)
  | .dumpUnits => True
  | _ => False

theorem not_demand_expansion {x : Step} (hx : ¬ x.Expands) (e h : TypeHandle) :
    ¬ x.demand (.expansion e) h := by
  cases x with
  | request r => cases r <;> first | exact id | exact fun _ => hx trivial
  | _ => exact id

theorem not_demand_branches {x : Step} (hx : ¬ x.Resolves)
    (pair : Option TypeHandle × Option TypeHandle) (h : TypeHandle) :
    ¬ x.demand (.branches pair) h := by
  cases x with
  | request r => cases r <;> first | exact id | exact fun _ => hx trivial
  | dumpUnits => exact fun _ => hx trivial
  | _ => exact id

end Step

namespace Session

variable {document : Value} {config : Option Value} {s : Session}

/-! ## 2. Runs -/

/-- **What a record knows after a step** was known before it, or the step may work it out. -/
theorem Valid.known_step (hs : s.Valid) {x : Step} {memo : Memo} (hx : ∀ h, ¬ x.demand memo h)
    (h : ((Session.step x).run s).2.store.Known memo) : s.store.Known memo := by
  by_cases hreplaces : x.Replaces
  · cases x with
    | replace document =>
      rw [run_replace] at h
      cases hlink : Facts.link document with
      | ok facts =>
        rw [hlink] at h
        obtain ⟨y, hy⟩ := h
        exact absurd hy (TypeExpr.not_knows_blank memo)
      | error f =>
        rw [hlink] at h
        exact h
    | _ => exact hreplaces.elim
  · exact (allows_step hreplaces hs).1.2.2.known hx h

/-- **The sessions over a document that steps of some kind lead to**, failed ones included. -/
inductive ReachedBy (document : Value) (config : Option Value) (allowed : Step → Prop) :
    Session → Prop where
  | start {host : Host} {s : Session} : Session.start document config host = .ok s →
      ReachedBy document config allowed s
  | step {s : Session} (x : Step) : allowed x → ReachedBy document config allowed s →
      ReachedBy document config allowed ((Session.step x).run s).2

theorem ReachedBy.reachable {allowed : Step → Prop} (h : ReachedBy document config allowed s) :
    Reachable document config s := by
  induction h with
  | start hstart => exact .start hstart
  | step x _ _ ih => exact ih.step x

/-- **What no step of a run may work out stays unknown.** -/
theorem ReachedBy.unknown {allowed : Step → Prop} (memo : Memo)
    (hd : ∀ x, allowed x → ∀ h, ¬ x.demand memo h) (h : ReachedBy document config allowed s) :
    ¬ s.store.Known memo := by
  induction h with
  | start hstart =>
    obtain ⟨facts, -, rfl⟩ := eq_of_start hstart
    exact fun ⟨y, hy⟩ => TypeExpr.not_knows_blank memo hy
  | step x hx hs ih => exact fun hknown => ih (hs.reachable.valid.known_step (hd x hx) hknown)

end Session

/-! ## 3. The rendering of a type -/

/-- **The record that a choice names**: that of a type, or the one with a handle when it is asked for. -/
def TypeChoice.Names (before after : Model) : TypeChoice → TypeHandle → Prop
  | .type id, h => after.types.find? (some (.known ⟨id⟩)) = some h.index
  | .handle i, h => Registry.position? before.types.size i = some h.index

/-- **The conditional records inside the record that a choice names.** -/
def TypeChoice.Meets (c : TypeChoice) (st : Style) (before after : Model) (h : TypeHandle) : Prop :=
  ∃ root, c.Names before after root ∧ st.Meets after (some root) h

namespace Build

variable {cx : Context} {s : Store}

/-- What follows a build and only reads changes nothing. -/
theorem snd_run_bind {α β : Type} {x : Build α} {g : α → Build β} (hg : ∀ a s, ((g a).run s).2 = s) :
    ((x >>= g).run s).2 = (x.run s).2 := by
  rcases hx : x.run s with ⟨result, s'⟩
  cases result with
  | error f => rw [run_bind_error hx]
  | ok a => rw [run_bind_ok hx, hg]

theorem snd_run_orFault {α : Type} (x : Except Fault α) : ((orFault x).run s).2 = s := by
  cases x <;> rfl

/-- The record that was chosen is the one that is named. -/
theorem between_names (hf : cx.facts.Closed) {d : Demand} (c : TypeChoice) :
    Between cx d True s (chooseType cx c) fun h s' => ∀ s'', s'.Frozen s'' →
      c.Names s.toModel s''.toModel h := by
  cases c with
  | type id =>
    rw [chooseType]
    refine .ask ((Gives.and_ok (Facts.gives_declaredType id)).weaken False.elim) fun t ht => ?_
    refine (between_type (fun _ => trivial) hf ht.2).mono fun h s' hfind s'' hfrozen => ?_
    have hid : t = ⟨id⟩ := by
      have hdeclared := ht.1
      unfold Facts.declaredType at hdeclared
      split at hdeclared
      · exact (Except.ok.inj hdeclared).symm
      · cases hdeclared
    exact hfrozen.grows.types.find? _ _ (hid ▸ hfind)
  | handle i =>
    rw [chooseType]
    refine .readState ?_
    cases hi : Registry.position? s.types.size i with
    | none =>
      refine .throw fun e => ?_
      cases e
    | some h => exact .pure fun _ _ _ => hi

/-- **A type that is chosen and shown** has conditional records inside it resolved, whatever the
    outcome. -/
theorem held_shown (hf : cx.facts.Closed) {st : Style} (hs : s.AtRest cx) {c : TypeChoice} {α β : Type}
    (render : TypeHandle → Model → Rendering α) {g : TypeHandle → α → Build β}
    (hrender : ∀ root m h, render root m = .error (.unresolved h) → st.Meets m (some root) h)
    (hg : ∀ root a s, ((g root a).run s).2 = s) {s' : Store}
    (hrun : ((chooseType cx c >>= fun root => settled cx (render root) >>= g root).run s).2 = s') :
    s.Held (.branches (c.Meets st s.toModel s'.toModel)) s' := by
  have hnothing : ∀ s₁ s' : Store, s.Held .nothing s₁ → s.Held (.branches (c.Meets st s.toModel s'.toModel)) s₁ :=
    fun _ _ h => h.mono ⟨fun _ _ => False.elim, id⟩
  obtain ⟨⟨hs₁, hheld⟩, hgives⟩ := between_names (d := .nothing) hf c hs
  rcases hchoose : (chooseType cx c).run s with ⟨result, s₁⟩
  rw [hchoose] at hs₁ hheld hgives
  cases result with
  | error f =>
    rw [run_bind_error hchoose] at hrun
    exact hrun ▸ hnothing s₁ s₁ hheld
  | ok root =>
    rw [run_bind_ok hchoose, snd_run_bind (hg root)] at hrun
    have hshown : s₁.Held (.branches (st.Meets _ (some root))) _ := held_settled hf (hrender root) hs₁
    rw [hrun] at hshown
    refine (hnothing s₁ s' hheld).trans (hshown.mono ⟨fun memo h hd => ?_, id⟩)
    cases memo with
    | expansion e => exact hd
    | branches pair => exact ⟨root, hgives.2 s' hshown.toFrozen, hd⟩

end Build

/-- **The rendering of a type** keeps to it, as does its text. -/
theorem Workspace.held_render {f : Facts} {w : Workspace} (hf : f.Closed) (hw : w.Valid f) {s s' : Store}
    (hs : s.AtRest w.context) {c : TypeChoice} {r : Request} (hr : r = .render c ∨ r = .text c)
    (hrun : ((w.answer r).run s).2 = s') :
    s.Held (.branches (c.Meets w.style s.toModel s'.toModel)) s' := by
  have hclosed : w.context.facts.Closed := hw.facts ▸ hf
  rcases hr with rfl | rfl
  · refine Build.held_shown hclosed hs (fun root m => w.style.tokens m (some root))
      (fun _ _ _ => Style.meets_of_tokens) (fun root tokens s => ?_) hrun
    exact (Build.snd_run_bind fun _ _ => rfl).trans (Build.snd_run_orFault _)
  · exact Build.held_shown hclosed hs (fun root m => w.style.text m (some root))
      (fun _ _ _ => Style.meets_of_text) (fun _ _ _ => rfl) hrun

/-! ## 4. What a rendering leaves as it was -/

namespace Store

/-- **A later store in which only branches were resolved**: every member and unit that was there is as it
    was, and every type but for its branches.  These are resolved of some records only, and no record
    has others. -/
structure ResolvesOnly (met : TypeHandle → Prop) (s s' : Store) : Prop where
  member : ∀ h, s.HasMember h → s'.member h = s.member h
  unit : ∀ h, s.HasUnit h → s'.unit h = s.unit h
  type : ∀ h, s.HasType h → s'.type h = { s.type h with resolved := (s'.type h).resolved }
  resolved : ∀ h, s.HasType h → (s'.type h).resolved = (s.type h).resolved ∨
    (s.type h).resolved = none ∧ met h
  source : ∀ h pair, (s'.type h).resolved = some pair → ∃ x, (s'.type x).resolved = some pair ∧
    ((s.type x).resolved = some pair ∨ met x)

theorem Held.resolvesOnly {met : TypeHandle → Prop} {s s' : Store} (h : s.Held (.branches met) s') :
    s.ResolvesOnly met s' where
  member := h.member
  unit := h.unit
  type x hx := by
    -- a demand for branches works out no expansion
    have hexpanded : (s'.type x).expanded = (s.type x).expanded := by
      cases he : (s'.type x).expanded with
      | some e => exact ((h.kept (.expansion e) x hx he).resolve_right id).symm
      | none =>
        cases hold : (s.type x).expanded with
        | none => rfl
        | some e => exact he.symm.trans ((h.type x hx).expanded e hold)
    have hfields := (h.type x hx).fields
    rw [hexpanded] at hfields
    exact hfields
  resolved x hx := by
    cases hold : (s.type x).resolved with
    | some pair => exact .inl ((h.type x hx).resolved pair hold)
    | none =>
      cases hnew : (s'.type x).resolved with
      | none => exact .inl rfl
      | some pair =>
        rcases h.kept (.branches pair) x hx hnew with hknows | hmeets
        · exact .inl (hknows.symm.trans hold)
        · exact .inr ⟨rfl, hmeets⟩
  source x pair hx := h.source (.branches pair) ⟨x, hx⟩

end Store

namespace Session

/-- The conditional records inside the type that a choice names, between two points of a session. -/
def Meets (s s' : Session) (c : TypeChoice) (h : TypeHandle) : Prop :=
  ∃ w, s.workspace? = .ok w ∧ c.Meets w.style s.store.toModel s'.store.toModel h

/-- The rendering of a type in a session. -/
theorem Valid.held_render {s : Session} (hs : s.Valid) {c : TypeChoice} {r : Request}
    (hr : r = .render c ∨ r = .text c) : s.store.Held
      (.branches (s.Meets ((Session.step (.request r)).run s).2 c))
      ((Session.step (.request r)).run s).2.store := by
  have hgives := hs.gives_workspace
  cases hw : s.workspace? with
  | error f =>
    rw [Session.step, run_build_error hw]
    exact .refl _ _
  | ok w =>
    rw [hw] at hgives
    rw [Session.step, run_build_ok hw]
    have hheld := Workspace.held_render hs.closed hgives.valid hgives.valid.rest hr rfl
    refine hgives.store ▸ hheld.mono ⟨fun memo h hd => ?_, id⟩
    cases memo with
    | expansion e => exact hd
    | branches pair => exact ⟨w, hw, hgives.store ▸ hd⟩

/-- **Nothing is worked out before it is asked for.**  In a run without steps that ask what an alias
    stands for no type record has an expansion, and in a run without steps that show records or ask for
    branches none has branches.  The rendering of one type, whatever its outcome, resolves conditional
    records inside it and changes nothing else of what was there. -/
theorem worked_out_on_demand {document : Value} {config : Option Value} :
    (∀ s, ReachedBy document config (fun x => ¬ x.Expands) s → ∀ h, (s.store.type h).expanded = none) ∧
    (∀ s, ReachedBy document config (fun x => ¬ x.Resolves) s → ∀ h, (s.store.type h).resolved = none) ∧
    ∀ s, Reachable document config s → ∀ c r, r = .render c ∨ r = .text c → ∀ s',
      ((step (.request r)).run s).2 = s' → s.store.ResolvesOnly (s.Meets s' c) s'.store := by
  refine ⟨fun s hs h => ?_, fun s hs h => ?_, fun s hs c r hr s' hrun => ?_⟩
  · refine Option.eq_none_iff_forall_ne_some.2 fun e he => ?_
    exact hs.unknown (.expansion e) (fun x hx => x.not_demand_expansion hx e) ⟨h, he⟩
  · refine Option.eq_none_iff_forall_ne_some.2 fun pair hpair => ?_
    exact hs.unknown (.branches pair) (fun x hx => x.not_demand_branches hx pair) ⟨h, hpair⟩
  · exact hrun ▸ (hs.valid.held_render hr).resolvesOnly

/-- Two aliases, each a union of the other, and a conditional type with both as its branches. -/
def aliasesDocument : Value := .map [
  ("units", .list [.map [("name", .str "a"), ("symbol", .str "m")]]),
  ("symbols", .map [
    ("m", .map [("name", .str "m"), ("exports", .list [.str "v"])]),
    ("v", .map [("name", .str "v"), ("type", .str "C")]),
    ("p", .map [("name", .str "p")]),
    ("q", .map [("name", .str "q")])]),
  ("types", .map [
    ("C", .map [("flags", .str "CONDITIONAL"), ("checkType", .str "P"), ("extendsType", .str "Q"),
      ("trueType", .str "P"), ("falseType", .str "Q")]),
    ("P", .map [("flags", .str "UNION"), ("aliasSymbol", .str "p"), ("types", .list [.str "Q"])]),
    ("Q", .map [("flags", .str "UNION"), ("aliasSymbol", .str "q"), ("types", .list [.str "P"])])])]

/-- Once all units are built the two aliases are references that nothing expanded; the rendering of the
    conditional type resolves its branches, and nothing else. -/
theorem worked_out_on_demand_aliases : ∃ s s', ReachedBy aliasesDocument none (fun x => ¬ x.Expands) s ∧
    ((step (.request (.render (.type "C")))).run s).2 = s' ∧
    (s.store.type ⟨1⟩).kind = .aliasRef ∧ (s.store.type ⟨3⟩).kind = .aliasRef ∧
    (∀ h, (s.store.type h).expanded = none) ∧ (∀ h, (s.store.type h).resolved = none) ∧
    (s'.store.type ⟨0⟩).resolved = some (some ⟨1⟩, some ⟨3⟩) ∧
    s.store.ResolvesOnly (s.Meets s' (.type "C")) s'.store := by
  have hcheck : (Session.start aliasesDocument none).toOption.any (fun s =>
      let s := ((step .units).run s).2
      let s' := ((step (.request (.render (.type "C")))).run s).2
      decide ((s.store.type ⟨1⟩).kind = .aliasRef ∧ (s.store.type ⟨3⟩).kind = .aliasRef ∧
        (s'.store.type ⟨0⟩).resolved = some (some ⟨1⟩, some ⟨3⟩))) = true := by decide +kernel
  obtain ⟨s, hstart, hs⟩ := exists_start hcheck
  obtain ⟨hp, hq, hresolved⟩ := of_decide_eq_true hs
  have hreached : ∀ allowed : Step → Prop, allowed .units →
      ReachedBy aliasesDocument none allowed ((step .units).run s).2 := fun _ hunits =>
    .step .units hunits (.start hstart)
  exact ⟨_, _, hreached _ id, rfl, hp, hq, worked_out_on_demand.1 _ (hreached _ id),
    worked_out_on_demand.2.1 _ (hreached _ id), hresolved,
    worked_out_on_demand.2.2 _ (.step .units (.start hstart)) _ _ (.inl rfl) _ rfl⟩

end Session

end ApiReference
