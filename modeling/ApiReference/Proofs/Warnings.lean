/-
  What is reported of units that are left out.

  All units are built by one call, which leaves out those without a root and reports each.  A fault ends
  the call before it has seen all units, and what it reported stays: the next call begins again with the
  first unit, and reports it once more.  So a call that fails reports the first few units without a root,
  the one that gives a result reports all of them, and after it nothing more is reported.

  1. `Facts.rooted`, `Facts.reports` -- the units with a root, and what is reported of the others;
  2. `Build.Reports`     -- a build that reports something as it goes, and its rules;
  3. the calls of a build, and of a session;
  4. `Session.Tried`     -- runs, with the number of calls that failed;
  5. `Session.reports_by_call` -- what was reported in a run.
-/
import ApiReference.Proofs.Laziness

namespace ApiReference

/-! ## 1. Units with and without a root -/

/-- What is reported of a unit: nothing if it has a root. -/
def UnitFacts.report? (u : UnitFacts) : Option String :=
  if u.symbol.isSome then none else some ((Fault.noRoot u.name).message.getD "")

namespace Facts

/-- The unit at a position. -/
def unitAt (f : Facts) (i : Nat) : UnitFacts := (f.units[i]?).getD default

/-- Has the unit at a position a root? -/
def hasRoot (f : Facts) (i : Nat) : Bool := (f.unitAt i).symbol.isSome

/-- **The positions of the units with a root**, in order. -/
def rooted (f : Facts) : List Nat := (List.range f.units.length).filter f.hasRoot

/-- **What is reported of the units without a root**, in order: one text for each. -/
def reports (f : Facts) : List String := f.units.filterMap UnitFacts.report?

theorem units_eq_map (f : Facts) : f.units = (List.range f.units.length).map f.unitAt := by
  refine List.ext_getElem (by simp) fun i hi _ => ?_
  rw [List.getElem_map, List.getElem_range, unitAt, List.getElem?_eq_getElem hi, Option.getD_some]

/-- The reports, position by position. -/
theorem reports_eq_flatMap (f : Facts) :
    f.reports = (List.range f.units.length).flatMap fun i => (f.unitAt i).report?.toList := by
  rw [reports, units_eq_map f, List.filterMap_map, List.filterMap_eq_flatMap_toList, ← units_eq_map f]
  rfl

end Facts

/-- What is found for the positions that are kept, one after another. -/
theorem forall₂_flatten {R : Nat → UnitHandle → Prop} {keep : Nat → Bool} {l : List Nat}
    {found : List (List UnitHandle)}
    (h : List.Forall₂ (fun i us => List.Forall₂ R ([i].filter keep) us) l found) :
    List.Forall₂ R (l.filter keep) found.flatten := by
  induction h with
  | nil => exact .nil
  | @cons i us l found hi _ ih =>
    rw [List.flatten_cons, ← List.singleton_append, List.filter_append]
    exact List.rel_append hi ih

/-- The record of the unit at a position. -/
def Store.IsUnit (s : Store) (i : Nat) (u : UnitHandle) : Prop := s.units.find? i = some u.index

theorem Store.Frozen.isUnit {s s' : Store} (h : s.Frozen s') {i : Nat} {u : UnitHandle}
    (hu : s.IsUnit i u) : s'.IsUnit i u := h.grows.units.find? _ _ hu

/-! ## 2. Builds that report -/

namespace Build

/-- **A build between requests that reports some texts**, in order: all of them if it gives a result,
    which then has `Q`, and the first few if it fails. -/
def Reports {α : Type} (cx : Context) (texts : List String) (s : Store) (x : Build α)
    (Q : α → Store → Prop) : Prop :=
  s.AtRest cx → (x.run s).2.AtRest cx ∧ s.Frozen (x.run s).2 ∧
    ∃ new, new <+: texts ∧ (x.run s).2.warnings = s.warnings ++ new ∧
      ∀ a, (x.run s).1 = .ok a → new = texts ∧ Q a (x.run s).2

namespace Reports

variable {cx : Context} {s : Store} {α β : Type} {P : α → Store → Prop} {texts texts' : List String}

theorem pure {a : α} (h : P a s) : Reports cx [] s (Pure.pure a) P := fun hs =>
  ⟨hs, .refl s, [], List.prefix_rfl, (List.append_nil _).symm, fun _ he => Except.ok.inj he ▸ ⟨rfl, h⟩⟩

/-- The store that the build begins in is at rest. -/
theorem holds {x : Build α} (h : s.AtRest cx → Reports cx texts s x P) : Reports cx texts s x P :=
  fun hs => h hs hs

theorem readState {g : Store → Build α} (hg : Reports cx texts s (g s) P) :
    Reports cx texts s (get >>= g) P := hg

/-- What reports nothing. -/
theorem silent {d : Demand} {x : Build α} (hd : ¬ d.reports) (hx : Between cx d True s x P) :
    Reports cx [] s x P := by
  intro hs
  obtain ⟨⟨hrest, hheld⟩, hgives⟩ := hx hs
  refine ⟨hrest, hheld.toFrozen, [], List.prefix_rfl, ?_, fun a ha => ⟨rfl, ?_⟩⟩
  · rw [hheld.warnings hd, List.append_nil]
  · rw [ha] at hgives
    exact hgives.2

/-- **One build after another** reports the texts of both. -/
theorem bind {x : Build α} {g : α → Build β} {Q : β → Store → Prop} (hx : Reports cx texts s x P)
    (hg : ∀ a s', s.Frozen s' → P a s' → Reports cx texts' s' (g a) Q) :
    Reports cx (texts ++ texts') s (x >>= g) Q := by
  intro hs
  obtain ⟨hrest, hfrozen, new, hnew, hwarnings, hok⟩ := hx hs
  rcases hr : x.run s with ⟨result, s₁⟩
  rw [hr] at hrest hfrozen hwarnings hok
  cases result with
  | error f =>
    rw [run_bind_error hr]
    exact ⟨hrest, hfrozen, new, hnew.trans (List.prefix_append ..), hwarnings, fun _ he => nomatch he⟩
  | ok a =>
    rw [run_bind_ok hr]
    obtain ⟨rfl, hP⟩ := hok a rfl
    obtain ⟨hrest', hfrozen', new', hnew', hwarnings', hok'⟩ := hg a s₁ hfrozen hP hrest
    refine ⟨hrest', hfrozen.trans hfrozen', new ++ new', (List.prefix_append_right_inj new).2 hnew',
      ?_, fun b hb => ?_⟩
    · rw [hwarnings', hwarnings, List.append_assoc]
    · obtain ⟨rfl, hQ⟩ := hok' b hb
      exact ⟨rfl, hQ⟩

/-- **One build for each element of a list**, for a property of results that later stores keep. -/
theorem mapM {xs : List α} {g : α → Build β} {text : α → List String} {Q : α → β → Store → Prop}
    (hmono : ∀ a b s s', s.Frozen s' → Q a b s → Q a b s')
    (hg : ∀ a ∈ xs, ∀ s', Reports cx (text a) s' (g a) (Q a)) :
    Reports cx (xs.flatMap text) s (xs.mapM g) fun bs s' => List.Forall₂ (fun a b => Q a b s') xs bs := by
  induction xs generalizing s with
  | nil => exact .pure .nil
  | cons a l ih =>
    rw [List.mapM_cons, List.flatMap_cons]
    refine (hg a List.mem_cons_self s).bind fun b s₁ _ hb => ?_
    have hrest := ih (s := s₁) fun x hx => hg x (List.mem_cons_of_mem a hx)
    rw [← List.append_nil (l.flatMap text)]
    exact hrest.bind fun bs s₂ hfrozen hbs => .pure (.cons (hmono _ _ _ _ hfrozen hb) hbs)

end Reports

/-! ## 3. One call -/

section

variable {cx : Context} (hf : cx.facts.Closed) {s : Store}
include hf

/-- **A unit with a root has a record and is not reported, one without is reported and has none.** -/
theorem reports_unitOrWarning {i : Nat} (hi : i < cx.facts.units.length) :
    Reports cx (cx.facts.unitAt i).report?.toList s (unitOrWarning cx (.ok i)) fun us s' =>
      List.Forall₂ s'.IsUnit ([i].filter cx.facts.hasRoot) us := by
  rw [unitOrWarning]
  refine .readState (.holds fun hs => ?_)
  change Reports cx (if cx.facts.hasRoot i then none else some _).toList s
    (if s.units.contains i || cx.facts.hasRoot i then _ else _) _
  cases hroot : cx.facts.hasRoot i with
  | true =>
    rw [Bool.or_true, if_pos rfl, if_pos rfl, List.filter_cons_of_pos hroot]
    exact Reports.bind (.silent (d := .nothing) id (between_unit (fun _ => trivial) hf hi))
      fun u s' _ hu => .pure (.cons hu .nil)
  | false =>
    -- no run registers the position of a unit without a root
    have hnone : s.units.contains i = false := by
      rw [Registry.contains, ← Bool.not_eq_true, Option.isSome_iff_ne_none]
      intro hne
      obtain ⟨u, hu, hsome⟩ := hs.declared (.unit i) hne
      rw [Facts.hasRoot, Facts.unitAt, hu, Option.getD_some, hsome] at hroot
      exact nomatch hroot
    rw [hnone, Bool.or_false, if_neg (by decide), if_neg (by decide), List.filter_cons_of_neg (by simp [hroot])]
    intro _
    obtain ⟨hrest, hheld⟩ := hs.warn (d := Demand.nothing.reporting) trivial (s.warnings ++ _)
    exact ⟨hrest, hheld.toFrozen, _, List.prefix_rfl, rfl, fun us hus => ⟨rfl, Except.ok.inj hus ▸ .nil⟩⟩

/-- **A call for all units** that gives a result gives the records of those with a root, and reports the
    others. -/
theorem reports_allUnits : Reports cx cx.facts.reports s (allUnits cx) fun us s' =>
    List.Forall₂ s'.IsUnit cx.facts.rooted us := by
  rw [allUnits, Facts.reports_eq_flatMap, ← List.append_nil (List.flatMap _ _)]
  refine Reports.bind (Reports.mapM (fun i us s s' hfrozen h => ?_) fun i hi s' =>
    reports_unitOrWarning hf (List.mem_range.1 hi)) fun found s' _ hfound =>
      .pure (forall₂_flatten hfound)
  exact h.imp fun i u hu => hfrozen.isUnit hu

end

end Build

/-- The steps that ask for all units. -/
def Step.Asks : Step → Prop
  | .units | .dumpUnits => True
  | _ => False

theorem Step.not_replaces {x : Step} (hx : x.Asks) : ¬ x.Replaces := by
  cases x <;> first | exact id | exact hx.elim

/-- No other step reports a unit. -/
theorem Step.not_reports {x : Step} (hx : ¬ x.Asks) : ¬ x.demand.reports := by
  cases x with
  | units => exact absurd trivial hx
  | dumpUnits => exact absurd trivial hx
  | request r => cases r <;> exact id
  | _ => exact id

namespace Session

variable {s s' s'' : Session}

/-- **What a call for all units does**: nothing where it was answered before or no model can be opened;
    else it fails and has reported the first few units, or gives the records and has reported all. -/
inductive Called (s s' : Session) : Prop where
  | kept : s'.units = s.units → s'.store.warnings = s.store.warnings → Called s s'
  | failed (texts : List String) : s.units = none → s'.units = none → texts <+: s.facts.reports →
      s'.store.warnings = s.store.warnings ++ texts → Called s s'
  | returned (us : List UnitHandle) : s.units = none → s'.units = some us →
      s'.store.warnings = s.store.warnings ++ s.facts.reports →
      List.Forall₂ s'.store.IsUnit s.facts.rooted us → Called s s'

/-- What follows a call and reports nothing. -/
theorem Called.trans (h : s.Called s') (hunits : s''.units = s'.units) {d : Demand} (hd : ¬ d.reports)
    (hheld : s'.store.Held d s''.store) : s.Called s'' := by
  have hwarnings := hheld.warnings hd
  cases h with
  | kept hsame hnone => exact .kept (hunits.trans hsame) (hwarnings.trans hnone)
  | failed texts hbefore hafter htexts hnew =>
    exact .failed texts hbefore (hunits.trans hafter) htexts (hwarnings.trans hnew)
  | returned us hbefore hafter hnew hus =>
    exact .returned us hbefore (hunits.trans hafter) (hwarnings.trans hnew)
      (hus.imp fun i u hu => hheld.toFrozen.isUnit hu)

theorem Valid.called_allUnits (hs : s.Valid) : s.Called (allUnits.run s).2 := by
  rw [allUnits, run_get]
  cases hunits : s.units with
  | some us => exact .kept rfl rfl
  | none =>
    dsimp only
    have hgives := hs.gives_workspace
    cases hw : s.workspace? with
    | error f =>
      rw [run_bind_error (run_build_error hw)]
      exact .kept rfl rfl
    | ok w =>
      rw [hw] at hgives
      have hfacts := hgives.valid.facts
      have hreports := Build.reports_allUnits (hfacts ▸ hs.closed) hgives.valid.rest
      obtain ⟨-, -, new, hnew, hwarnings, hok⟩ := hreports
      have hrun : (build fun w => Build.allUnits w.context).run s = _ := run_build_ok hw
      rcases hr : (Build.allUnits w.context).run w.store with ⟨result, store⟩
      rw [hr] at hwarnings hok hrun
      rw [hgives.store] at hwarnings
      cases result with
      | error f =>
        -- the call keeps no units; what the units before the fault reported stays
        rw [run_bind_error hrun]
        exact .failed new hunits hunits (hfacts ▸ hnew) hwarnings
      | ok us =>
        rw [run_bind_ok hrun]
        obtain ⟨rfl, hus⟩ := hok us rfl
        exact .returned us hunits rfl (hfacts ▸ hwarnings) (hfacts ▸ hus)

/-! ### Steps -/

section Units

variable {α β : Type}

theorem units_bind {x : SessionM α} {g : α → SessionM β} (hx : (x.run s).2.units = s.units)
    (hg : ∀ a s', ((g a).run s').2.units = s'.units) : ((x >>= g).run s).2.units = s.units := by
  rcases hr : x.run s with ⟨result, s'⟩
  rw [hr] at hx
  cases result with
  | error f =>
    rw [run_bind_error hr]
    exact hx
  | ok a =>
    rw [run_bind_ok hr, hg]
    exact hx

theorem units_orFault (x : Except Fault α) : ((orFault x).run s).2.units = s.units := by
  cases x <;> rfl

theorem units_opened : (opened.run s).2.units = s.units := by
  cases hw : s.workspace? with
  | error f => rw [run_opened_error hw]
  | ok w =>
    rw [run_opened_ok hw]
    rfl

theorem units_build (action : Workspace → Build α) : ((build action).run s).2.units = s.units := by
  cases hw : s.workspace? with
  | error f => rw [run_build_error hw]
  | ok w =>
    rw [run_build_ok hw]
    rfl

end Units

/-- A step that does not ask for all units keeps the answer. -/
theorem units_step {x : Step} (hx : ¬ x.Asks) (hkeep : ¬ x.Replaces) :
    ((step x).run s).2.units = s.units := by
  cases x with
  | units => exact absurd trivial hx
  | dumpUnits => exact absurd trivial hx
  | unit name => exact units_bind (units_build _) fun _ _ => rfl
  | request r => exact units_build _
  | pick ids =>
    rw [step, run_get]
    refine units_bind (units_orFault _) fun ds s₁ => units_bind units_opened fun w s₂ => ?_
    exact units_bind (units_orFault _) fun _ _ => rfl
  | ask question =>
    rw [step, run_get]
    exact units_bind (units_orFault _) fun _ _ => rfl
  | replace document => exact absurd trivial hkeep

/-- A step that does not ask for all units keeps the answer, and reports nothing. -/
theorem Valid.kept (hs : s.Valid) {x : Step} (hx : ¬ x.Asks) (hkeep : ¬ x.Replaces) :
    ((Session.step x).run s).2.units = s.units ∧
      ((Session.step x).run s).2.store.warnings = s.store.warnings :=
  ⟨units_step hx hkeep, (allows_step hkeep hs).1.2.2.warnings (Step.not_reports hx)⟩

/-- **A step that asks for all units** fails with its call, or goes on with the answer, keeps it, and
    reports nothing more. -/
theorem Valid.asked (hs : s.Valid) {x : Step} (hx : x.Asks) :
    (∃ f, (Session.step x).run s = (.error f, (allUnits.run s).2)) ∨
    ∃ us, ((Session.step x).run s).2.units = some us ∧
      ((Session.step x).run s).2.units = (allUnits.run s).2.units ∧
      (allUnits.run s).2.store.Held (.branches fun _ => True) ((Session.step x).run s).2.store ∧
      ∀ a, ((Session.step x).run s).1 = .ok a → x = .units → a = .units us := by
  have hallows : (working (Step.demand .units)).Allows True s allUnits _ :=
    allows_allUnits (fun _ _ _ => trivial) trivial
  obtain ⟨⟨hvalid, -⟩, hunits⟩ := hallows hs
  rcases hr : allUnits.run s with ⟨f | us, s'⟩
  · refine .inl ⟨f, ?_⟩
    cases x with
    | units => rw [Session.step, run_bind_error hr]
    | dumpUnits => rw [Session.step, run_bind_error hr]
    | _ => exact hx.elim
  · rw [hr] at hunits hvalid
    refine .inr ⟨us, ?_⟩
    cases x with
    | units =>
      rw [Session.step, run_bind_ok hr]
      exact ⟨hunits.2, rfl, .refl _ _, fun a ha _ => (Except.ok.inj ha).symm⟩
    | dumpUnits =>
      rw [Session.step, run_bind_ok hr]
      -- the dump works with the units that the call kept
      have hkept : ((dumpOf us >>= fun vs => pure (Answer.value (.list vs))).run s').2.units = s'.units :=
        units_bind (units_build _) fun _ _ => rfl
      have hdump : (working (.branches fun _ => True)).Allows True s'
          (dumpOf us >>= fun vs => pure (Answer.value (.list vs))) fun _ _ => True :=
        (allows_dumpOf (fun _ _ => trivial) hunits.2).bind fun vs s'' _ _ => .pure fun _ => trivial
      refine ⟨hkept.trans hunits.2, hkept, (hdump hvalid).1.2.2, fun _ _ he => ?_⟩
      cases he
    | _ => exact hx.elim

/-- It makes one call. -/
theorem Valid.called (hs : s.Valid) {x : Step} (hx : x.Asks) : s.Called ((Session.step x).run s).2 := by
  rcases hs.asked hx with ⟨f, hrun⟩ | ⟨us, -, hkept, hheld, -⟩
  · rw [hrun]
    exact hs.called_allUnits
  · exact hs.called_allUnits.trans hkept id hheld

/-! ## 4. Runs -/

/-- **The sessions over a document that steps lead to**, failed ones included, with the number of calls
    for all units that failed since the compilation was put in place. -/
inductive Tried (document : Value) (config : Option Value) : Nat → Session → Prop where
  | start {host : Host} {s : Session} : Session.start document config host = .ok s →
      Tried document config 0 s
  | fails {n : Nat} {s : Session} (x : Step) : x.Asks → ((Session.step x).run s).2.units = none →
      Tried document config n s → Tried document config (n + 1) ((Session.step x).run s).2
  | goes {n : Nat} {s : Session} (x : Step) : (x.Asks → ((Session.step x).run s).2.units ≠ none) →
      (x.Replaces → ∃ f, ((Session.step x).run s).1 = .error f) →
      Tried document config n s → Tried document config n ((Session.step x).run s).2
  | replaces {n : Nat} {s : Session} (x : Step) {a : Answer} : x.Replaces →
      ((Session.step x).run s).1 = .ok a →
      Tried document config n s → Tried document config 0 ((Session.step x).run s).2

variable {document : Value} {config : Option Value}

theorem Tried.reachable {n : Nat} (h : Tried document config n s) : Reachable document config s := by
  induction h with
  | start hstart => exact .start hstart
  | fails x _ _ _ ih => exact ih.step x
  | goes x _ _ _ ih => exact ih.step x
  | replaces x _ _ _ ih => exact ih.step x

/-- A step within the compilation either fails such a call or not. -/
theorem Tried.onward {n : Nat} (h : Tried document config n s) (x : Step)
    (hx : x.Replaces → ∃ f, ((Session.step x).run s).1 = .error f) :
    ∃ m, Tried document config m ((Session.step x).run s).2 := by
  by_cases hfails : x.Asks ∧ ((Session.step x).run s).2.units = none
  · exact ⟨n + 1, .fails x hfails.1 hfails.2 h⟩
  · exact ⟨n, .goes x (not_and.1 hfails) hx h⟩

/-- **Every session is one of these**: some number of calls failed. -/
theorem Reachable.tried (h : Reachable document config s) : ∃ n, Tried document config n s := by
  induction h with
  | start hstart => exact ⟨0, .start hstart⟩
  | @step s x _ ih =>
    obtain ⟨n, hn⟩ := ih
    rcases hr : ((Session.step x).run s).1 with f | a
    · exact hn.onward x fun _ => ⟨f, hr⟩
    · by_cases hreplaces : x.Replaces
      · exact ⟨0, .replaces x hreplaces hr hn⟩
      · exact hn.onward x fun h => absurd h hreplaces

/-- **What a session has reported** after some number of calls that failed: the first few units without a
    root for each of these, and all of them once a call gave a result, which lists the records of the
    units with a root, in order. -/
structure Reported (s : Session) (n : Nat) : Prop where
  warnings : ∃ failed : List (List String), failed.length = n ∧ (∀ texts ∈ failed, texts <+: s.facts.reports) ∧
    s.store.warnings = failed.flatten ++ if s.units.isSome then s.facts.reports else []
  units : ∀ us, s.units = some us → List.Forall₂ s.store.IsUnit s.facts.rooted us

/-- A session before its first step. -/
theorem Reported.fresh (hworkspace : s.workspace = none) (hunits : s.units = none) : s.Reported 0 := by
  have hstore : s.store = {} := by rw [Session.store, hworkspace]
  refine ⟨⟨[], rfl, fun _ h => absurd h List.not_mem_nil, ?_⟩, fun us hus => ?_⟩
  · rw [hstore, hunits]
    rfl
  · rw [hunits] at hus
    cases hus

/-- A step that keeps the answer and reports nothing. -/
theorem Reported.kept {n : Nat} (h : s.Reported n) (hlater : s.Later s') (hfrozen : s.store.Frozen s'.store)
    (hunits : s'.units = s.units) (hwarnings : s'.store.warnings = s.store.warnings) : s'.Reported n := by
  refine ⟨?_, fun us hus => ?_⟩
  · rw [hwarnings, hunits, hlater.facts]
    exact h.warnings
  · rw [hlater.facts]
    exact (h.units us (hunits ▸ hus)).imp fun i u hu => hfrozen.isUnit hu

/-- One call more that failed. -/
theorem Reported.failed {n : Nat} (h : s.Reported n) (hlater : s.Later s') (hnone : s.units = none)
    (hunits : s'.units = none) {texts : List String} (htexts : texts <+: s.facts.reports)
    (hwarnings : s'.store.warnings = s.store.warnings ++ texts) : s'.Reported (n + 1) := by
  obtain ⟨failed, hlength, hfailed, hold⟩ := h.warnings
  refine ⟨⟨failed ++ [texts], ?_, fun ts hts => ?_, ?_⟩, fun us hus => ?_⟩
  · rw [List.length_append, hlength, List.length_singleton]
  · rw [hlater.facts]
    rcases List.mem_append.1 hts with hts | hts
    · exact hfailed ts hts
    · exact List.mem_singleton.1 hts ▸ htexts
  · rw [hwarnings, hold, hnone, hunits, List.flatten_append, List.flatten_singleton]
    simp only [Option.isSome_none, Bool.false_eq_true, if_false, List.append_nil]
  · rw [hunits] at hus
    cases hus

/-- The call that gives a result. -/
theorem Reported.returned {n : Nat} (h : s.Reported n) (hlater : s.Later s') (hnone : s.units = none)
    {us : List UnitHandle} (hunits : s'.units = some us)
    (hwarnings : s'.store.warnings = s.store.warnings ++ s.facts.reports)
    (hus : List.Forall₂ s'.store.IsUnit s.facts.rooted us) : s'.Reported n := by
  obtain ⟨failed, hlength, hfailed, hold⟩ := h.warnings
  rw [hnone] at hold
  refine ⟨⟨failed, hlength, hlater.facts ▸ hfailed, ?_⟩, fun vs hvs => ?_⟩
  · rw [hwarnings, hold, hunits, hlater.facts]
    simp only [Option.isSome_none, Option.isSome_some, Bool.false_eq_true, if_false, if_true,
      List.append_nil]
  · rw [hunits] at hvs
    cases hvs
    exact hlater.facts ▸ hus

/-! ## 5. What was reported -/

/-- **What every session has reported**, by induction over its steps. -/
theorem Tried.reported {n : Nat} (h : Tried document config n s) : s.Reported n := by
  induction h with
  | start hstart =>
    obtain ⟨facts, -, rfl⟩ := eq_of_start hstart
    exact .fresh rfl rfl
  | @fails n s x hx hnone hs ih =>
    have hvalid := hs.reachable.valid
    obtain ⟨-, hlater, hheld⟩ := (allows_step (Step.not_replaces hx) hvalid).1
    cases hvalid.called hx with
    | kept hunits hwarnings =>
      exact ih.failed hlater (hunits.symm.trans hnone) hnone List.nil_prefix
        (hwarnings.trans (List.append_nil _).symm)
    | failed texts hbefore hafter htexts hnew => exact ih.failed hlater hbefore hafter htexts hnew
    | returned us _ hafter =>
      -- a call that returns keeps its units
      rw [hafter] at hnone
      exact nomatch hnone
  | @goes n s x hasks hreplaces hs ih =>
    have hvalid := hs.reachable.valid
    by_cases hkeep : x.Replaces
    -- a document that does not link leaves the session as it was
    · obtain ⟨f, hf⟩ := hreplaces hkeep
      rw [eq_of_replaces_error hkeep hf]
      exact ih
    · obtain ⟨-, hlater, hheld⟩ := (allows_step hkeep hvalid).1
      by_cases hx : x.Asks
      · cases hvalid.called hx with
        | kept hunits hwarnings => exact ih.kept hlater hheld.toFrozen hunits hwarnings
        | failed texts _ hafter => exact absurd hafter (hasks hx)
        | returned us hbefore hafter hnew hus => exact ih.returned hlater hbefore hafter hnew hus
      · obtain ⟨hunits, hwarnings⟩ := hvalid.kept hx hkeep
        exact ih.kept hlater hheld.toFrozen hunits hwarnings
  | @replaces n s x a hreplaces hok hs ih =>
    cases x with
    | replace document =>
      rw [run_replace] at hok ⊢
      cases hlink : Facts.link document with
      | ok facts => exact .fresh rfl rfl
      | error f =>
        rw [hlink] at hok
        exact nomatch hok
    | _ => exact hreplaces.elim

/-- **Without calls that failed** nothing is reported twice. -/
theorem Reported.once (h : s.Reported 0) : s.store.warnings.Sublist s.facts.reports := by
  obtain ⟨failed, hlength, -, hwarnings⟩ := h.warnings
  rw [hwarnings, List.length_eq_zero_iff.1 hlength, List.flatten_nil, List.nil_append]
  split
  · exact List.Sublist.refl _
  · exact List.nil_sublist _

/-- **Units without a root are reported by call.**  In every session that steps lead to, whatever else was
    asked in between, each call for all units that failed has reported the first few units without a
    root, in order, and the one that gave a result has reported each of them; nothing else is reported.
    So where no call failed each unit is reported once at most.  A call that gives a result lists the
    records of the units with a root, in order, and no others. -/
theorem reports_by_call {n : Nat} (h : Tried document config n s) :
    s.Reported n ∧ (n = 0 → s.store.warnings.Sublist s.facts.reports) ∧
    ∀ x : Step, x.Asks → ∀ a s', (step x).run s = (.ok a, s') →
      s'.Reported n ∧ ∃ us, s'.units = some us ∧ (x = .units → a = .units us) := by
  refine ⟨h.reported, fun hn => (hn ▸ h.reported).once, fun x hx a s' hrun => ?_⟩
  have hasked := h.reachable.valid.asked hx
  rw [hrun] at hasked
  rcases hasked with ⟨f, hf⟩ | ⟨us, hus, -, -, ha⟩
  · exact nomatch hf
  · have hlast : ((step x).run s).2 = s' := by rw [hrun]
    have htried : Tried document config n s' := by
      refine hlast ▸ .goes x (fun _ => ?_) (fun hreplaces => absurd hreplaces (Step.not_replaces hx)) h
      rw [hlast, hus]
      exact Option.some_ne_none us
    exact ⟨htried.reported, us, hus, ha a rfl⟩

/-- A unit without a root, and one whose root exports a symbol that is missing. -/
def brokenDocument : Value := .map [
  ("units", .list [.map [("name", .str "a")], .map [("name", .str "b"), ("symbol", .str "m")]]),
  ("symbols", .map [("m", .map [("name", .str "m"), ("exports", .list [.null])])])]

/-- The first call for all units fails at the second unit; the next one finds its record, and gives a
    result. -/
theorem exists_retried : ∃ s s₁ a s₂, Session.start brokenDocument none = .ok s ∧
    ((step .units).run s).2 = s₁ ∧ s₁.units = none ∧ (step .units).run s₁ = (.ok a, s₂) ∧
    s₂.units = some [⟨0⟩] ∧ s₂.facts.rooted = [1] ∧
    s₂.facts.reports = ["No root symbol for source unit: a"] ∧
    s₂.store.warnings = ["No root symbol for source unit: a", "No root symbol for source unit: a"] := by
  have hcheck : (Session.start brokenDocument none).toOption.any (fun s =>
      let s₁ := ((step .units).run s).2
      let s₂ := ((step .units).run s₁).2
      s₁.finds .units (fun _ => true) && decide (s₁.units = none ∧ s₂.units = some [⟨0⟩] ∧
        s₂.facts.rooted = [1] ∧ s₂.facts.reports = ["No root symbol for source unit: a"] ∧
        s₂.store.warnings = ["No root symbol for source unit: a", "No root symbol for source unit: a"])) =
      true := by decide +kernel
  obtain ⟨s, hstart, hs⟩ := exists_start hcheck
  obtain ⟨hfinds, hchecked⟩ := Bool.and_eq_true_iff.1 hs
  obtain ⟨a, s₂, -, hrun, -⟩ := run_of_finds hfinds
  obtain ⟨hnone, hafter⟩ := of_decide_eq_true hchecked
  rw [hrun] at hafter
  exact ⟨s, _, a, s₂, hstart, rfl, hnone, hrun, hafter⟩

/-- After a call that failed, the next one lists the record of the second unit. -/
theorem reports_by_call_retried : ∃ s a s', Tried brokenDocument none 1 s ∧ s.Reported 1 ∧
    (step .units).run s = (.ok a, s') ∧ s'.Reported 1 ∧ a = .units [⟨0⟩] ∧ s'.facts.rooted = [1] := by
  obtain ⟨s, s₁, a, s₂, hstart, rfl, hnone, hrun, hunits, hrooted, -⟩ := exists_retried
  have htried : Tried brokenDocument none 1 ((step .units).run s).2 :=
    .fails .units trivial hnone (.start hstart)
  obtain ⟨hreported, -, hcalls⟩ := reports_by_call htried
  obtain ⟨hafter, us, hus, ha⟩ := hcalls .units trivial a s₂ hrun
  cases hunits.symm.trans hus
  exact ⟨_, a, s₂, htried, hreported, hrun, hafter, ha rfl, hrooted⟩

/-- Whether each unit without a root is reported once at most, in order, in runs of steps that ask for all
    units. -/
def ReportsOnce (document : Value) (config : Option Value) : Prop :=
  ∀ s, ReachedBy document config Step.Asks s → s.store.warnings.Sublist s.facts.reports

/-- **A unit is reported again** by the call that follows one that failed. -/
theorem reported_again : ¬ ReportsOnce brokenDocument none := by
  obtain ⟨s, s₁, a, s₂, hstart, rfl, -, hrun, -, -, hreports, hwarnings⟩ := exists_retried
  have hreached : ReachedBy brokenDocument none Step.Asks ((step .units).run ((step .units).run s).2).2 :=
    .step .units trivial (.step .units trivial (.start hstart))
  intro honce
  have hsublist := honce _ hreached
  rw [hrun] at hsublist
  dsimp only at hsublist
  rw [hwarnings, hreports] at hsublist
  exact absurd hsublist.length_le (by decide)

end Session

end ApiReference
