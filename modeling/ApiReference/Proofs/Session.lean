/-
  What holds of every session.

  A session opens its workspace on the first step that needs it and drops it when the compilation is
  replaced.  Between steps the store is at rest: no request is running, no copy waits, every copy is in
  step with its source.  Within one compilation a record that was built stays as it is, and what was
  shown of it is shown again.

  1. the workspace of a session, and builds in it;
  2. `Session.Valid`, `Session.Later` -- between steps, and within one compilation;
  3. units, and one step;
  4. `Session.Reachable`, `Session.Within` -- runs;
  5. requests end; copies are in step; records are frozen.
-/
import ApiReference.Proofs.Workspace
import ApiReference.Session

namespace ApiReference

namespace Session

/-! ## 1. Builds in a session -/

/-- The workspace, or the one that the next step opens. -/
def workspace? (s : Session) : Except Fault Workspace :=
  match s.workspace with
  | some w => .ok w
  | none => Workspace.ofFacts s.facts s.config s.host

/-- The store now; before the first use there is nothing in it. -/
def store (s : Session) : Store :=
  match s.workspace with
  | some w => w.store
  | none => {}

/-- The session after a build in its workspace. -/
def after (s : Session) (w : Workspace) (store : Store) : Session :=
  { s with workspace := some { w with store } }

/-- A workspace that is open stays as it is. -/
theorem after_self {s : Session} {w : Workspace} (hw : s.workspace = some w) : s.after w w.store = s := by
  obtain ⟨facts, config, host, workspace, units⟩ := s
  cases hw
  rfl

theorem run_opened_ok {s : Session} {w : Workspace} (hw : s.workspace? = .ok w) :
    opened.run s = (.ok w, s.after w w.store) := by
  unfold workspace? at hw
  rw [opened, run_get]
  cases hopen : s.workspace with
  | some v =>
    rw [hopen] at hw
    cases hw
    rw [after_self hopen]
    rfl
  | none =>
    rw [hopen] at hw
    dsimp only at hw ⊢
    rw [hw]
    rfl

theorem run_opened_error {s : Session} {f : Fault} (hf : s.workspace? = .error f) :
    opened.run s = (.error f, s) := by
  unfold workspace? at hf
  rw [opened, run_get]
  cases hopen : s.workspace with
  | some v =>
    rw [hopen] at hf
    exact nomatch hf
  | none =>
    rw [hopen] at hf
    dsimp only at hf ⊢
    rw [hf]
    rfl

theorem run_build_ok {α : Type} {action : Workspace → Build α} {s : Session} {w : Workspace}
    (hw : s.workspace? = .ok w) : (build action).run s =
      (((action w).run w.store).1, s.after w ((action w).run w.store).2) := by
  rw [build, run_bind_ok (run_opened_ok hw), Workspace.run]
  rcases hr : (action w).run w.store with ⟨result, store⟩
  dsimp only
  cases result <;> rfl

theorem run_build_error {α : Type} {action : Workspace → Build α} {s : Session} {f : Fault}
    (hf : s.workspace? = .error f) : (build action).run s = (.error f, s) := by
  rw [build, run_bind_error (run_opened_error hf)]

/-! ## 2. Between steps -/

/-- **A session between steps**: linked facts, and a store at rest. -/
structure Valid (s : Session) : Prop where
  closed : s.facts.Closed
  workspace : ∀ w, s.workspace = some w → w.Valid s.facts
  host : ∀ w, s.workspace = some w → w.context.host = s.host
  units : ∀ us, s.units = some us →
    ∃ w, s.workspace = some w ∧ ∀ u ∈ us, w.store.HasUnit u

/-- **What an empty store has and every store at rest, the store of a session has.** -/
theorem Valid.of_rest {s : Session} (hs : s.Valid) {P : Facts → Store → Prop} (hempty : P s.facts {})
    (hrest : ∀ cx (st : Store), st.AtRest cx → P cx.facts st) : P s.facts s.store := by
  unfold store
  cases hw : s.workspace with
  | some w =>
    have hvalid := hs.workspace w hw
    exact hvalid.facts ▸ hrest w.context w.store hvalid.rest
  | none => exact hempty

/-- **A later point of the same compilation.** -/
structure Later (s s' : Session) : Prop where
  facts : s'.facts = s.facts
  config : s'.config = s.config
  workspace : ∀ w, s.workspace = some w → ∃ w', s'.workspace = some w' ∧ w.Later w'
  units : ∀ us, s.units = some us → s'.units = some us

theorem Later.refl (s : Session) : s.Later s :=
  ⟨rfl, rfl, fun w hw => ⟨w, hw, .refl w⟩, fun _ h => h⟩

theorem Later.trans {s s' s'' : Session} (h : s.Later s') (h' : s'.Later s'') : s.Later s'' where
  facts := h'.facts.trans h.facts
  config := h'.config.trans h.config
  workspace := by
    intro w hw
    obtain ⟨w', hw', hlater⟩ := h.workspace w hw
    obtain ⟨w'', hw'', hlater'⟩ := h'.workspace w' hw'
    exact ⟨w'', hw'', hlater.trans hlater'⟩
  units := fun us hus => h'.units us (h.units us hus)

/-- Sessions between steps, within one compilation. -/
def lasting : Regime Session := ⟨Valid, Later, fun s => s.store.Whole, .refl, .trans⟩

/-- Sessions between steps, with what may be worked out from one to the next. -/
def working (d : Demand) : Regime Session where
  Holds := Valid
  Later s s' := s.Later s' ∧ s.store.Held d s'.store
  Whole s := s.store.Whole
  refl s := ⟨.refl s, .refl d s.store⟩
  trans h h' := ⟨h.1.trans h'.1, h.2.trans h'.2⟩

/-- The workspace that a step works in: the one that was open, or a new one. -/
structure WorksIn (s : Session) (w : Workspace) : Prop where
  valid : w.Valid s.facts
  host : w.context.host = s.host
  store : w.store = s.store
  same : ∀ v, s.workspace = some v → v = w

theorem Valid.gives_workspace {s : Session} (hs : s.Valid) :
    Gives False s.WorksIn s.workspace? := by
  unfold workspace?
  split
  · rename_i w hw
    refine ⟨hs.workspace w hw, hs.host w hw, ?_, fun v hv => ?_⟩
    · rw [Session.store, hw]
    · rw [hw] at hv
      exact (Option.some.inj hv).symm
  · rename_i hnone
    refine (Workspace.gives_ofFacts s.facts s.config s.host).mono fun w hw =>
      ⟨hw.1, hw.2.1, ?_, fun v hv => ?_⟩
    · rw [Session.store, hnone]
      exact hw.2.2
    · rw [hnone] at hv
      exact nomatch hv

/-- A session whose store has gone on to another at rest. -/
theorem Valid.after {s : Session} (hs : s.Valid) {w : Workspace} (hw : s.WorksIn w) {d : Demand}
    {store : Store} (hrest : store.AtRest w.context) (hheld : w.store.Held d store) :
    (s.after w store).Valid ∧ s.Later (s.after w store) ∧ s.store.Held d (s.after w store).store := by
  have hlater : w.Later { w with store } := ⟨rfl, hheld.toFrozen⟩
  refine ⟨⟨hs.closed, fun v hv => ?_, fun v hv => ?_, fun us hus => ?_⟩,
    ⟨rfl, rfl, fun v hv => ?_, fun _ h => h⟩, hw.store ▸ hheld⟩
  · cases hv
    exact ⟨hw.valid.facts, hw.valid.text, hrest⟩
  · cases hv
    exact hw.host
  · obtain ⟨v, hv, hin⟩ := hs.units us hus
    refine ⟨_, rfl, fun u hu => ?_⟩
    exact Nat.lt_of_lt_of_le (hw.same v hv ▸ hin u hu) hheld.grows.units.size
  · exact ⟨_, rfl, hw.same v hv ▸ hlater⟩

section Steps

variable {d : Demand} {hang : Prop} {s : Session} {α β : Type}

/-- **A build in a session**, given what it does between requests. -/
theorem allows_build {action : Workspace → Build α} {Q : α → Session → Prop}
    (hx : s.Valid → ∀ w, s.WorksIn w → Between w.context d hang w.store (action w) fun a store =>
      Q a (s.after w store)) : (working d).Allows hang s (build action) Q := by
  intro hs
  have hgives := hs.gives_workspace
  cases hw : s.workspace? with
  | error f =>
    rw [run_build_error hw]
    rw [hw] at hgives
    exact ⟨⟨hs, (working d).refl s⟩, fun he => (hgives he).elim⟩
  | ok w =>
    rw [run_build_ok hw]
    rw [hw] at hgives
    obtain ⟨⟨hrest, hheld⟩, hresult⟩ := hx hs w hgives hgives.valid.rest
    refine ⟨hs.after hgives hrest hheld, hresult.mono fun a ha => ⟨fun hw => ha.1 ?_, ha.2⟩⟩
    rw [hgives.store]
    exact hw

theorem allows_ask {x : Except Fault α} {R : α → Prop} {g : α → SessionM β} {Q : β → Session → Prop}
    (hx : Gives hang R x) (hg : ∀ a, R a → (working d).Allows hang s (g a) Q) :
    (working d).Allows hang s (orFault x >>= g) Q := by
  cases x with
  | ok a => exact fun hs => hg a hx hs
  | error f => exact fun hs => ⟨⟨hs, (working d).refl s⟩, hx⟩

theorem allows_opened : (working d).Allows hang s opened fun _ _ => True := by
  intro hs
  have hgives := hs.gives_workspace
  cases hw : s.workspace? with
  | error f =>
    rw [run_opened_error hw]
    rw [hw] at hgives
    exact ⟨⟨hs, (working d).refl s⟩, fun he => (hgives he).elim⟩
  | ok w =>
    rw [run_opened_ok hw]
    rw [hw] at hgives
    refine ⟨hs.after hgives hgives.valid.rest (.refl d _), fun hw => ?_, trivial⟩
    show w.store.Whole
    rw [hgives.store]
    exact hw

/-! ## 3. Steps -/

/-- The unit records are built once, and are there. -/
theorem allows_allUnits (hhang : ∀ w, s.WorksIn w → ¬ w.context.HasRoom w.store → hang)
    (hd : d.reports) :
    (working d).Allows hang s allUnits fun us s' => s'.units = some us := by
  unfold allUnits
  refine .readState ?_
  split
  · rename_i us hus
    exact .pure fun _ => hus
  · rename_i hnone
    refine Regime.Allows.bind (P := fun us s' => s'.units = none ∧
      ∃ w, s'.workspace = some w ∧ ∀ u ∈ us, w.store.HasUnit u) ?_ fun us s' hlater hus => ?_
    · refine allows_build fun hs w hw => ?_
      have hclosed : w.context.facts.Closed := hw.valid.facts ▸ hs.closed
      refine (Build.between_allUnits (hhang w hw) hclosed hd).mono fun us store hus => ?_
      exact ⟨hnone, _, rfl, hus⟩
    · intro hs'
      refine ⟨⟨⟨hs'.closed, hs'.workspace, hs'.host, fun vs hvs => ?_⟩,
        ⟨rfl, rfl, fun w hw => ?_, fun vs hvs => ?_⟩, .refl d _⟩, id, rfl⟩
      · cases hvs
        exact hus.2
      · exact ⟨w, hw, .refl w⟩
      · rw [hus.1] at hvs
        exact nomatch hvs

/-- A build that does not look at the store it is given is repeated in the session, if it is in the
    store. -/
theorem repeats_build {action : Workspace → Build α} (haction : ∀ w st, action { w with store := st } = action w)
    {a : α} {w : Workspace} {store : Store} (hx : Build.Repeats w.context (action w) a store) :
    lasting.Repeats (build action) a (s.after w store) := by
  intro s' hlater hs'
  obtain ⟨w', hw', hlater'⟩ := hlater.workspace _ rfl
  have hopen : s'.workspace? = .ok w' := by rw [workspace?, hw']
  have hsame : action w' = action w := by
    rw [hlater'.same]
    exact haction w _
  have hcontext : w'.context = w.context := by rw [hlater'.same]
  have hrest : w'.store.AtRest w.context := hcontext ▸ (hs'.workspace w' hw').rest
  rw [run_build_ok hopen, hsame, hx w'.store hlater'.store hrest]
  dsimp only
  rw [after_self hw']

theorem repeats_allUnits {us : List UnitHandle} (hus : s.units = some us) :
    lasting.Repeats allUnits us s := by
  intro s' hlater _
  rw [allUnits, run_get, hlater.units us hus]
  rfl

end Steps

end Session

/-! ### One step -/

/-- The steps that show records. -/
def Step.Shows : Step → Prop
  | .request r => r.Shows
  | .dumpUnits => True
  | _ => False

/-- The steps that build records and show nothing of them. -/
def Step.Builds : Step → Prop
  | .request r => r.Builds
  | .units | .unit _ => True
  | _ => False

/-- **What a step may work out**, and whether it reports units. -/
def Step.demand : Step → Demand
  | .request r => r.demand
  | .units => Demand.nothing.reporting
  | .dumpUnits => (Demand.branches fun _ => True).reporting
  | _ => .nothing

/-- The step about the records that are chosen now. -/
def Step.pin (s : Session) : Step → Step
  | .request r => .request (r.pin s.store)
  | x => x

/-- Does the step put another compilation in place? -/
def Step.Replaces : Step → Prop
  | .replace _ => True
  | _ => False

namespace Session

variable {d : Demand} {hang : Prop} {s : Session}

theorem answer_store (w : Workspace) (st : Store) (r : Request) :
    ({ w with store := st } : Workspace).answer r = w.answer r := by
  cases r <;> rfl

/-- **Steps that build end**, where the call stack has room for them. -/
theorem allows_builds (hhang : ∀ w, s.WorksIn w → ¬ w.context.HasRoom w.store → hang) {x : Step}
    (hx : x.Builds) :
    (working x.demand).Allows hang s (step x) fun _ _ => True := by
  cases x with
  | units =>
    rw [step]
    exact (allows_allUnits hhang trivial).bind fun us s' _ _ => .pure fun _ => trivial
  | unit name =>
    rw [step]
    refine Regime.Allows.bind (P := fun _ _ => True) (allows_build fun hs w hw => ?_)
      fun u s' _ _ => .pure fun _ => trivial
    have hclosed : w.context.facts.Closed := hw.valid.facts ▸ hs.closed
    exact (Build.between_unitNamed (hhang w hw) hclosed name).mono fun _ _ _ => trivial
  | request r =>
    exact allows_build fun hs w hw => Workspace.between_builds hs.closed hw.valid (hhang w hw) hx
  | _ => exact hx.elim

theorem allows_dumpOf (hd : ∀ pair h, d (.branches pair) h) {us : List UnitHandle}
    (hus : s.units = some us) :
    (working d).Allows True s (dumpOf us) fun vs s' => lasting.Repeats (dumpOf us) vs s' := by
  refine allows_build fun hs w hw => ?_
  obtain ⟨v, hv, hin⟩ := hs.units us hus
  cases hw.same v hv
  have hdata := Workspace.between_unitsData hs.closed hw.valid hd hin
  exact hdata.mono fun vs store h => repeats_build (fun _ _ => rfl) h

/-- **Every step within a compilation** leaves the session valid and its records as they are, and what
    it shows it shows again. -/
theorem allows_step {x : Step} (hx : ¬ x.Replaces) :
    (working x.demand).Allows True s (step x) fun a s' => x.Shows → lasting.Repeats (step (x.pin s)) a s' := by
  cases x with
  | units =>
    exact (allows_builds (fun _ _ _ => trivial) (x := .units) trivial).mono fun a s' _ => False.elim
  | unit name =>
    exact (allows_builds (fun _ _ _ => trivial) (x := .unit name) trivial).mono fun a s' _ => False.elim
  | dumpUnits =>
    rw [step]
    refine (allows_allUnits (fun _ _ _ => trivial) trivial).bind fun us s₁ _ hus => ?_
    refine (allows_dumpOf (fun _ _ => trivial) hus).bind fun vs s₂ hlater hvs => .pure fun _ _ => ?_
    exact ((repeats_allUnits hus).later hlater.1).bind (hvs.bind (.pure _ _))
  | request r =>
    refine allows_build fun hs w hw => ?_
    refine (Workspace.between_answer hs.closed hw.valid r).mono fun a store h hshows => ?_
    rw [hw.store] at h
    exact repeats_build (fun w st => answer_store w st _) (h hshows)
  | pick ids =>
    refine .readState (allows_ask (Gives.any _) fun ds _ => ?_)
    refine allows_opened.bind fun w s₁ _ _ => ?_
    exact allows_ask (Gives.any _) fun d _ => .pure fun _ => False.elim
  | ask question => exact .readState (allows_ask (Gives.any _) fun v _ => .pure fun _ => False.elim)
  | replace document => exact absurd trivial hx

/-- Another compilation is linked, or the session stays as it was. -/
theorem run_replace (document : Value) (s : Session) : (step (.replace document)).run s =
    match Facts.link document with
    | .ok facts => (.ok (.value (.bool true)), { s with facts, workspace := none, units := none })
    | .error f => (.error f, s) := by
  rw [step]
  cases Facts.link document <;> rfl

/-- A compilation that cannot be put in place leaves the session as it is. -/
theorem eq_of_replaces_error {x : Step} (hx : x.Replaces) {f : Fault}
    (hf : ((step x).run s).1 = .error f) : ((step x).run s).2 = s := by
  cases x with
  | replace document =>
    rw [run_replace] at hf ⊢
    cases hlink : Facts.link document with
    | ok facts =>
      rw [hlink] at hf
      exact nomatch hf
    | error g => rfl
  | _ => exact hx.elim

/-- **Every step leaves a valid session**, whatever its outcome. -/
theorem Valid.step (hs : s.Valid) (x : Step) : ((step x).run s).2.Valid := by
  by_cases hx : x.Replaces
  · cases x with
    | replace document =>
      rw [run_replace]
      cases hlink : Facts.link document with
      | ok facts =>
        exact ⟨closed_of_link hlink, (fun _ hw => nomatch hw), (fun _ hw => nomatch hw),
          fun _ hus => nomatch hus⟩
      | error f => exact hs
    | _ => exact hx.elim
  · exact (allows_step hx hs).1.1

/-! ## 4. Runs -/

/-- **The sessions over a document that steps lead to**, on any host and failed ones included. -/
inductive Reachable (document : Value) (config : Option Value) : Session → Prop where
  | start {host : Host} {s : Session} : Session.start document config host = .ok s →
      Reachable document config s
  | step {s : Session} (x : Step) : Reachable document config s →
      Reachable document config ((Session.step x).run s).2

/-- One step that leaves the compilation in place: it replaces nothing, or fails. -/
def Follows (s s' : Session) : Prop :=
  ∃ x, (x.Replaces → ∃ f, ((step x).run s).1 = .error f) ∧ s' = ((step x).run s).2

/-- **Later, within one compilation.** -/
def Within : Session → Session → Prop := Relation.ReflTransGen Follows

/-- A session begins with the linked facts and without a workspace. -/
theorem eq_of_start {document : Value} {config : Option Value} {host : Host}
    (h : Session.start document config host = .ok s) :
    ∃ facts, Facts.link document = .ok facts ∧ s = { facts, config, host } := by
  rw [Session.start] at h
  cases hlink : Facts.link document with
  | error f =>
    rw [hlink] at h
    exact nomatch h
  | ok facts =>
    rw [hlink] at h
    cases h
    exact ⟨facts, rfl, rfl⟩

theorem Reachable.valid {document : Value} {config : Option Value}
    (h : Reachable document config s) : s.Valid := by
  induction h with
  | start hstart =>
    obtain ⟨facts, hlink, rfl⟩ := eq_of_start hstart
    exact ⟨closed_of_link hlink, (fun _ hw => nomatch hw), (fun _ hw => nomatch hw),
      fun _ hus => nomatch hus⟩
  | step x _ ih => exact ih.step x

section Filled

variable {document : Value} {config : Option Value} (h : Reachable document config s) {w : Workspace}
variable (hw : s.workspace = some w) {x : RecordHandle}
include h hw

/-- **What is filled is done** with what was filled before it, in every session. -/
theorem Reachable.logged {before : List RecordHandle} (hentry : x :: before <:+ w.store.filled) :
    w.store.Done w.context w.store.members.size before x :=
  (h.valid.workspace w hw).rest.log x before hentry List.nil_suffix

theorem Reachable.done (hx : x ∈ w.store.filled) :
    ∃ before, w.store.Done w.context w.store.members.size before x := by
  obtain ⟨later, before, hsplit⟩ := List.append_of_mem hx
  exact ⟨before, h.logged hw ⟨later, hsplit.symm⟩⟩

end Filled

theorem Valid.follows (hs : s.Valid) {s' : Session} (h : s.Follows s') : s'.Valid ∧ s.Later s' := by
  obtain ⟨x, hx, rfl⟩ := h
  by_cases hreplaces : x.Replaces
  · obtain ⟨f, hf⟩ := hx hreplaces
    rw [eq_of_replaces_error hreplaces hf]
    exact ⟨hs, .refl s⟩
  · obtain ⟨hvalid, hlater, -⟩ := (allows_step hreplaces hs).1
    exact ⟨hvalid, hlater⟩

/-- **A run within one compilation** keeps every record. -/
theorem Valid.within (hs : s.Valid) {s' : Session} (h : s.Within s') : s'.Valid ∧ s.Later s' := by
  induction h with
  | refl => exact ⟨hs, .refl s⟩
  | tail _ hstep ih =>
    obtain ⟨hvalid, hlater⟩ := ih
    obtain ⟨hvalid', hlater'⟩ := hvalid.follows hstep
    exact ⟨hvalid', hlater.trans hlater'⟩

/-- **The sessions over a document that steps lead to of which none failed**, on any host. -/
inductive Unfailing (document : Value) (config : Option Value) : Session → Prop where
  | start {host : Host} {s : Session} : Session.start document config host = .ok s →
      Unfailing document config s
  | step {s s' : Session} (x : Step) (a : Answer) : Unfailing document config s →
      (Session.step x).run s = (.ok a, s') → Unfailing document config s'

theorem Unfailing.reachable {document : Value} {config : Option Value}
    (h : Unfailing document config s) : Reachable document config s := by
  induction h with
  | start hstart => exact .start hstart
  | @step s s' x a _ hrun ih =>
    have hlast : ((Session.step x).run s).2 = s' := by rw [hrun]
    exact hlast ▸ ih.step x

/-- **Without failures every registered record is filled.** -/
theorem Unfailing.whole {document : Value} {config : Option Value}
    (h : Unfailing document config s) : s.store.Whole := by
  have hempty : ∀ {s : Session}, s.workspace = none → s.store.Whole := by
    intro s hnone
    rw [Session.store, hnone]
    exact Store.whole_empty
  induction h with
  | start hstart =>
    obtain ⟨facts, -, rfl⟩ := eq_of_start hstart
    exact hempty rfl
  | @step s s' x a hs hrun ih =>
    by_cases hx : x.Replaces
    -- a new document starts afresh
    · cases x with
      | replace document =>
        rw [run_replace] at hrun
        split at hrun
        · cases hrun
          exact hempty rfl
        · exact nomatch hrun
      | _ => exact hx.elim
    · have hgives := (allows_step hx hs.reachable.valid).2
      rw [hrun] at hgives
      exact hgives.1 ih

/-- A session over a document, and what it is found to satisfy. -/
theorem exists_start {document : Value} {config : Option Value} {p : Session → Bool}
    (h : (Session.start document config).toOption.any p = true) :
    ∃ s, Session.start document config = .ok s ∧ p s = true :=
  exists_ok_of_any h

/-- Does the step succeed, and in a workspace that is found to satisfy this? -/
def finds (s : Session) (x : Step) (p : Workspace → Bool) : Bool :=
  ((step x).run s).1.toOption.isSome && ((step x).run s).2.workspace.any p

/-- A step that is found to succeed, and what the workspace after it satisfies. -/
theorem run_of_finds {s : Session} {x : Step} {p : Workspace → Bool} (h : s.finds x p = true) :
    ∃ a s' w, (step x).run s = (.ok a, s') ∧ s'.workspace = some w ∧ p w = true := by
  rw [finds, Bool.and_eq_true] at h
  rcases hrun : (step x).run s with ⟨result, s'⟩
  rw [hrun] at h
  obtain ⟨w, hw, hp⟩ := (Option.any_eq_true _ _).1 h.2
  cases result with
  | error f => cases h.1
  | ok a => exact ⟨a, s', w, rfl, hw, hp⟩

/-- The session after a step that succeeds, and what its workspace is found to satisfy. -/
theorem exists_of_finds {document : Value} {config : Option Value} {s : Session}
    (hstart : Session.start document config = .ok s) {x : Step} {p : Workspace → Bool}
    (h : s.finds x p = true) :
    ∃ s' w, Unfailing document config s' ∧ s'.workspace = some w ∧ p w = true := by
  obtain ⟨a, s', w, hrun, hw, hp⟩ := run_of_finds h
  exact ⟨s', w, .step x a (.start hstart) hrun, hw, hp⟩

/-- A session after one step that succeeds. -/
theorem exists_step {document : Value} {config : Option Value} (x : Step) {p : Workspace → Bool}
    (h : (Session.start document config).toOption.any (fun s => s.finds x p) = true) :
    ∃ s w, Unfailing document config s ∧ s.workspace = some w ∧ p w = true := by
  obtain ⟨s, hstart, hs⟩ := exists_start h
  exact exists_of_finds hstart hs

/-! ## 5. What holds of every run -/

/-- Two classes, one over the other, and a symbol that is the derived class and a property of its base. -/
def classesDocument : Value := .map [
  ("units", .list [.map [("name", .str "a"), ("symbol", .str "m")]]),
  ("symbols", .map [
    ("m", .map [("name", .str "m"), ("exports", .list [.str "x"])]),
    ("x", .map [("name", .str "x"), ("type", .str "A")])]),
  ("types", .map [
    ("A", .map [("flags", .str "OBJECT"), ("objectFlags", .str "CLASS"), ("symbol", .str "x"),
      ("baseTypes", .list [.str "B"])]),
    ("B", .map [("flags", .str "OBJECT"), ("objectFlags", .str "CLASS"),
      ("properties", .list [.str "x"])])])]

/-- **Copies are never left behind.**  In every session that steps lead to, failed ones included, no
    request is running, no copy waits, and every copy that was ever made is in step with its source;
    none is forgotten while the compilation lasts. -/
theorem copies_in_step {document : Value} {config : Option Value} (hs : Reachable document config s)
    {w : Workspace} (hw : s.workspace = some w) :
    w.store.depth = 0 ∧ w.store.pending = [] ∧
    (∀ p ∈ w.store.copies,
      w.store.member p.target = p.adjust.apply (w.store.member p.source)) ∧
    ∀ s', s.Within s' → ∃ w', s'.workspace = some w' ∧ w.store.copies <+: w'.store.copies := by
  have hrest := (hs.valid.workspace w hw).rest
  refine ⟨hrest.depth, hrest.pending, hrest.synced, fun s' h => ?_⟩
  obtain ⟨w', hw', hlater⟩ := (hs.valid.within h).2.workspace w hw
  exact ⟨w', hw', hlater.store.copies⟩

/-- A namespace that exports itself under another name. -/
def namespaceDocument : Value := .map [
  ("units", .list [.map [("name", .str "a"), ("symbol", .str "n")]]),
  ("declarations", .map [("d", .map [])]),
  ("symbols", .map [
    ("n", .map [("name", .str "n"), ("flags", .str "NAMESPACE_MODULE"),
      ("declarations", .list [.str "d"]), ("exports", .list [.str "y"])]),
    ("y", .map [("name", .str "y"), ("flags", .str "ALIAS"), ("declarations", .list [.str "d"]),
      ("aliasTarget", .str "n")])])]

/-- Asked for, the namespace lists the copy; and it can be dumped. -/
theorem exists_namespace : ∃ s, Session.start namespaceDocument none = .ok s ∧
    s.finds (.request (.member (.symbol "n"))) (fun w =>
      decide (w.store.copies = [⟨⟨0⟩, ⟨1⟩, .withRaw ⟨"y"⟩⟩] ∧
        (w.store.member ⟨1⟩).members = some [some ⟨1⟩])) = true ∧
    s.finds (.request (.dump (.symbol "n"))) (fun _ => true) = true := by
  have hcheck : (Session.start namespaceDocument none).toOption.any (fun s =>
      s.finds (.request (.member (.symbol "n"))) (fun w =>
        decide (w.store.copies = [⟨⟨0⟩, ⟨1⟩, .withRaw ⟨"y"⟩⟩] ∧
          (w.store.member ⟨1⟩).members = some [some ⟨1⟩])) &&
      s.finds (.request (.dump (.symbol "n"))) (fun _ => true)) = true := by decide +kernel
  obtain ⟨s, hstart, hs⟩ := exists_start hcheck
  exact ⟨s, hstart, Bool.and_eq_true_iff.1 hs⟩

/-- The copy is taken before the namespace has its members, and yet has them. -/
theorem copies_in_step_self : ∃ s w, Reachable namespaceDocument none s ∧ s.workspace = some w ∧
    w.store.copies = [⟨⟨0⟩, ⟨1⟩, .withRaw ⟨"y"⟩⟩] ∧ (w.store.member ⟨1⟩).members = some [some ⟨1⟩] ∧
    w.store.member ⟨1⟩ = (Adjust.withRaw ⟨"y"⟩).apply (w.store.member ⟨0⟩) := by
  obtain ⟨s, hstart, hfinds, -⟩ := exists_namespace
  obtain ⟨s', w, hs', hw, hchecked⟩ := exists_of_finds hstart hfinds
  obtain ⟨hcopies, hmembers⟩ := of_decide_eq_true hchecked
  refine ⟨s', w, hs'.reachable, hw, hcopies, hmembers, ?_⟩
  exact (copies_in_step hs'.reachable hw).2.2.1 ⟨⟨0⟩, ⟨1⟩, .withRaw ⟨"y"⟩⟩ (by simp [hcopies])

/-- **Records are frozen.**  Between two points of one compilation every member and unit record stays
    as it is, and every type record but for its expansion and its branches, which are set once.  What
    a step showed of a record it shows again. -/
theorem records_frozen {document : Value} {config : Option Value} (hs : Reachable document config s) :
    (∀ s', s.Within s' → ∀ w, s.workspace = some w → ∃ w', s'.workspace = some w' ∧ w.Later w') ∧
    ∀ x : Step, x.Shows → ∀ a s₁, (step x).run s = (.ok a, s₁) → ∀ s₂, s₁.Within s₂ →
      (step (x.pin s)).run s₂ = (.ok a, s₂) := by
  refine ⟨fun s' h => (hs.valid.within h).2.workspace, fun x hx a s₁ hrun s₂ hwithin => ?_⟩
  have hkeep : ¬ x.Replaces := by
    cases x <;> first | exact id | exact hx.elim
  obtain ⟨⟨hvalid, -⟩, hgives⟩ := allows_step hkeep hs.valid
  rw [hrun] at hvalid hgives
  obtain ⟨hvalid₂, hlater⟩ := hvalid.within hwithin
  exact hgives.2 hx s₂ hlater hvalid₂

/-- The data of the namespace is the same after all units were built. -/
theorem records_frozen_dump : ∃ s a s₁, Reachable namespaceDocument none s ∧
    (step (.request (.dump (.symbol "n")))).run s = (.ok a, s₁) ∧
    (step (.request (.dump (.symbol "n")))).run ((step .units).run s₁).2 =
      (.ok a, ((step .units).run s₁).2) := by
  obtain ⟨s, hstart, -, hdumps⟩ := exists_namespace
  have hreach : Reachable namespaceDocument none s := .start hstart
  obtain ⟨a, s₁, w, hrun, -, -⟩ := run_of_finds hdumps
  have hwithin : s₁.Within ((step .units).run s₁).2 := .single ⟨.units, False.elim, rfl⟩
  exact ⟨s, a, s₁, hreach, hrun, (records_frozen hreach).2 (.request (.dump (.symbol "n"))) trivial a s₁ hrun _ hwithin⟩

end Session

end ApiReference
