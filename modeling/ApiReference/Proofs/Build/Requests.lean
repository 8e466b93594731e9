/-
  Requests and units are runs.

  A request with a bound on its nesting runs fillings whose own requests have a smaller bound, so by
  induction on the bound every request is a run, and gives the record of what was asked for.

  1. `lawful_requestsWithin` -- members and types;
  2. `runs_unitWithin`       -- units;
  3. `runs_expandWithin`     -- the expansions of aliases, which no key leads to.
-/
import ApiReference.Proofs.Build.Members
import ApiReference.Proofs.Build.Types

namespace ApiReference.Build

variable {cx : Context} {n : Nat} {c : Scope} {s : Store}

/-! ## 1. Members and types -/

/-- A record that is there is found, whatever room is left on the call stack. -/
theorem member_found {room : Nat} (hcalm : s.Calm) {key : Option SymbolId} {h : Nat}
    (hfind : s.members.find? key = some h) :
    ((requestsWithin cx room).member key).run s = (.ok ⟨h⟩, s) := by
  cases room <;>
    · rw [requestsWithin]
      dsimp only
      exact requestMember_found hcalm hfind

theorem type_found {room : Nat} (hcalm : s.Calm) {key : Option TypeRef} {h : Nat}
    (hfind : s.types.find? key = some h) :
    ((requestsWithin cx room).type key).run s = (.ok ⟨h⟩, s) := by
  cases room <;>
    · rw [requestsWithin]
      dsimp only
      exact requestType_found hcalm hfind

/-- The record of a member key, after its registration and whatever follows. -/
theorem find_registered_member {key : Option SymbolId} (hkey : s.members.find? key = none) {s' : Store}
    (hg : (s.enter.register (.member key)).Grows s') : s'.members.find? key = some s.members.size :=
  hg.members.find? _ _ (Registry.find?_push_self hkey _)

theorem find_registered_type {key : Option TypeRef} (hkey : s.types.find? key = none) {s' : Store}
    (hg : (s.enter.register (.type key)).Grows s') : s'.types.find? key = some s.types.size :=
  hg.types.find? _ _ (Registry.find?_push_self hkey _)

/-- A member request with a bound, given what its filling does with a smaller one. -/
theorem runs_requestMember {fill : Option SymbolId → MemberHandle → Build PUnit}
    {key : Option SymbolId}
    (hfill : s.Sound → s.members.find? key = none → ∀ Q : MemberHandle → Store → Prop,
      (∀ s', (s.enter.register (.member key)).Grows s' → Q ⟨s.members.size⟩ s') →
      Outcome cx n c s Q (closed ⟨s.members.size⟩ ((Key.member key).next s)
        ((fill key ⟨s.members.size⟩).run (s.enter.register (.member key))))) :
    Runs cx n c s (requestMember fill key) fun h s' =>
      s'.IsMember key h ∧ (s' = s ∨ s.members.size ≤ h.index) := by
  intro hs _
  cases hkey : s.members.find? key with
  | some h =>
    rw [requestMember_found hs.calm hkey]
    exact ⟨.done, hkey, .inl rfl⟩
  | none =>
    rw [requestMember_new hkey]
    refine hfill hs hkey _ fun s' hg => ⟨find_registered_member hkey hg, .inr (Nat.le_refl _)⟩

theorem runs_requestType {fill : Option TypeRef → TypeHandle → Build PUnit} {key : Option TypeRef}
    (hfill : s.Sound → s.types.find? key = none → ∀ Q : TypeHandle → Store → Prop,
      (∀ s', (s.enter.register (.type key)).Grows s' → Q ⟨s.types.size⟩ s') →
      Outcome cx n c s Q (closed ⟨s.types.size⟩ ((Key.type key).next s)
        ((fill key ⟨s.types.size⟩).run (s.enter.register (.type key))))) :
    Runs cx n c s (requestType fill key) fun h s' => s'.IsType key h := by
  intro hs _
  cases hkey : s.types.find? key with
  | some h =>
    rw [requestType_found hs.calm hkey]
    exact ⟨.done, hkey⟩
  | none =>
    rw [requestType_new hkey]
    exact hfill hs hkey _ fun s' hg => find_registered_type hkey hg

/-- **The record of a type is filled by a run.** -/
theorem ends_fillTypeExpr (hf : cx.facts.Closed) {r : Requests} (hr : r.Lawful cx n)
    (key : Option TypeRef) :
    Ends cx n (Scope.ofKey s (.type key)) (s.enter.register (.type key))
      (EndsFilled cx s (.type key)) (fillTypeExpr cx r key ⟨s.types.size⟩) := by
  have hblank : (s.enter.register (.type key)).type ⟨s.types.size⟩ = {} :=
    (Registry.recordAt_push ..).trans (if_pos rfl)
  have hkeyed : (s.enter.register (.type key)).types.keyAt s.types.size = some key :=
    (Registry.keyAt_push ..).trans (if_pos rfl)
  have hin : (s.enter.register (.type key)).HasType ⟨s.types.size⟩ :=
    Nat.lt_of_lt_of_eq (Nat.lt_succ_self _) (Registry.size_push ..).symm
  refine .of_runs (P := fun _ s' => s'.TypeDone cx s'.filled ⟨s.types.size⟩)
    (fun _ s' hdone => ⟨.asIs _ s', hdone⟩) ?_
  refine (runs_fillTypeExpr hf hr rfl hblank key).mono fun _ s' ho hmade k hk => ?_
  rw [ho.grows.types.keyAt _ hin, hkeyed] at hk
  cases hk
  exact hmade

/-- **Requests keep to their word**, whatever the bound on their nesting. -/
theorem lawful_requestsWithin (hf : cx.facts.Closed) (n : Nat) :
    (requestsWithin cx n).Lawful cx n := by
  induction n with
  | zero =>
    rw [requestsWithin]
    constructor
    · intro c s key hdecl
      dsimp only
      refine runs_requestMember fun hs hkey Q _ => ?_
      exact Trace.cut (.member key) hkey hdecl
    · intro c s key hdecl
      dsimp only
      refine runs_requestType fun hs hkey Q _ => ?_
      exact Trace.cut (.type key) hkey hdecl
  | succ n ih =>
    rw [requestsWithin]
    constructor
    · intro c s key hdecl
      dsimp only
      refine runs_requestMember fun hs hkey Q hQ => ?_
      exact outcome_closed (.member key) hs hkey hdecl (fun _ => Key.noConfusion) (ends_fillMember hf ih hs hdecl) hQ
    · intro c s key hdecl
      dsimp only
      refine runs_requestType fun hs hkey Q hQ => ?_
      exact outcome_closed (.type key) hs hkey hdecl (fun _ => Key.noConfusion) (ends_fillTypeExpr hf ih key) hQ

/-! ## 2. Units -/

/-- **A unit displays the exports of its root.** -/
theorem runs_fillUnit (hf : cx.facts.Closed) {r : Requests} (hr : r.Lawful cx n) {h : UnitHandle}
    (hu : c.unit = some h) (root : SymbolId) (u : UnitFacts) :
    Runs cx n c s (fillUnit cx r root u h) (fun _ s' => ∃ entries,
      s'.Displays cx.settings.sort (cx.facts.symbol root).exports entries (s'.unit h).members) := by
  unfold fillUnit
  refine (Runs.writeUnit (s := s) (f := fun _ record => { UnitRecord.applyTags
      { record with path := u.path, name := u.name, isDeclaration := u.isDeclaration
                    isModule := u.isModule } u.tags with imports := u.imports }) hu fun hc => ?_).bind
    fun _ s₁ _ _ => ?_
  · have hnamed : UnitRecord.Refers s.toModel { s.unit h with
        path := u.path, name := u.name, isDeclaration := u.isDeclaration, isModule := u.isModule } := hc
    exact hnamed.applyTags u.tags
  · refine Runs.bind (asks_members hr (hf.symbol root).exports)
      fun members s₂ _ ⟨_, hmembers⟩ => .sound fun _ hc => ?_
    refine (Runs.writeUnit (s := s₂) (f := fun s record => { record with
      members := if cx.settings.sort then sortMembers s.toModel members else members }) hu
      fun _ x hx => ?_).mono fun _ s₃ ho he => ⟨members, ?_⟩
    · have hin : x ∈ members := (perm_shown _ _ _).mem_iff.1 hx
      exact hmembers.membersIn _ rfl (some x) (List.mem_map_of_mem hin) x rfl
    · have hown : s₃.unit h = { s₂.unit h with
          members := if cx.settings.sort then sortMembers s₂.toModel members else members } := by
        rw [he, Store.unit_setUnit_self (hc.unit h hu).1]
      rw [hown]
      refine Store.displays_sorted _ (hmembers.registered.imp fun _ _ => ho.upholds.isMember)
        fun a => ?_
      rw [he]
      rfl

theorem requestUnit_found {fill : SymbolId → UnitFacts → UnitHandle → Build PUnit} {position h : Nat}
    (hfind : s.units.find? position = some h) :
    (requestUnit cx fill position).run s = (.ok ⟨h⟩, s) := by
  rw [requestUnit, run_get, hfind]
  rfl

theorem requestUnit_rootless {fill : SymbolId → UnitFacts → UnitHandle → Build PUnit} {position : Nat}
    (hfind : s.units.find? position = none)
    (hroot : ((cx.facts.units[position]?).getD default).symbol = none) :
    (requestUnit cx fill position).run s =
      (.error (.noRoot ((cx.facts.units[position]?).getD default).name), s) := by
  rw [requestUnit, run_get, hfind]
  dsimp only
  rw [hroot]
  rfl

theorem requestUnit_new {fill : SymbolId → UnitFacts → UnitHandle → Build PUnit} {position : Nat}
    {root : SymbolId} (hfind : s.units.find? position = none)
    (hroot : ((cx.facts.units[position]?).getD default).symbol = some root) :
    (requestUnit cx fill position).run s = closed ⟨s.units.size⟩ ((Key.unit position).next s)
      ((fill root ((cx.facts.units[position]?).getD default) ⟨s.units.size⟩).run
        (s.enter.register (.unit position))) := by
  rw [requestUnit, run_get, hfind]
  dsimp only
  rw [hroot]
  dsimp only
  rw [run_nested]
  exact run_filling ..

/-- A unit request with a bound, given what its filling does with a smaller one. -/
theorem runs_requestUnit {fill : SymbolId → UnitFacts → UnitHandle → Build PUnit} {position : Nat}
    (hfill : s.Sound → s.units.find? position = none → ∀ root,
      ((cx.facts.units[position]?).getD default).symbol = some root →
      ∀ Q : UnitHandle → Store → Prop,
      (∀ s', (s.enter.register (.unit position)).Grows s' → Q ⟨s.units.size⟩ s') →
      Outcome cx n c s Q (closed ⟨s.units.size⟩ ((Key.unit position).next s)
        ((fill root ((cx.facts.units[position]?).getD default) ⟨s.units.size⟩).run
          (s.enter.register (.unit position))))) :
    Runs cx n c s (requestUnit cx fill position) fun h s' =>
      s'.units.find? position = some h.index := by
  intro hs _
  cases hkey : s.units.find? position with
  | some h =>
    rw [requestUnit_found hkey]
    exact ⟨.done, hkey⟩
  | none =>
    cases hroot : ((cx.facts.units[position]?).getD default).symbol with
    | none =>
      rw [requestUnit_rootless hkey hroot]
      exact .fault _ fun h => nomatch h
    | some root =>
      rw [requestUnit_new hkey hroot]
      refine hfill hs hkey root hroot _ fun s' hg => ?_
      exact hg.units.find? _ _ (Registry.find?_push_self hkey _)

/-- A position at which a root is found is that of a unit with a root. -/
theorem unitKey_of_root {position : Nat} (hposition : position < cx.facts.units.length) {root : SymbolId}
    (hroot : ((cx.facts.units[position]?).getD default).symbol = some root) :
    cx.facts.UnitKey position := by
  have hunit : cx.facts.units[position]? = some cx.facts.units[position] :=
    List.getElem?_eq_getElem hposition
  rw [hunit] at hroot
  exact ⟨_, hunit, Option.isSome_iff_exists.2 ⟨root, hroot⟩⟩

/-- **A unit request is a run** where no other request is running, and gives the record of the unit. -/
theorem runs_unitWithin (hf : cx.facts.Closed) (hd : s.depth = 0) {position : Nat}
    (hposition : position < cx.facts.units.length) :
    Runs cx n c s (unitWithin cx n position) fun h s' => s'.units.find? position = some h.index := by
  cases n with
  | zero =>
    rw [unitWithin]
    refine runs_requestUnit fun hs hkey root hroot Q _ => ?_
    exact Trace.cut (.unit position) hkey (unitKey_of_root hposition hroot)
  | succ n =>
    rw [unitWithin]
    refine runs_requestUnit fun hs hkey root hroot Q hQ => ?_
    refine outcome_closed (.unit position) hs hkey (unitKey_of_root hposition hroot) (fun _ _ => hd) ?_ hQ
    have hunit : cx.facts.units[position]? = some cx.facts.units[position] :=
      List.getElem?_eq_getElem hposition
    have hin : (s.enter.register (.unit position)).HasUnit ⟨s.units.size⟩ :=
      Nat.lt_of_lt_of_eq (Nat.lt_succ_self _) (Registry.size_push ..).symm
    refine .of_runs (P := fun _ s' => s'.UnitDone cx ⟨s.units.size⟩)
      (fun _ s' hdone => ⟨.asIs _ s', hdone⟩) ?_
    refine (runs_fillUnit hf (lawful_requestsWithin hf n) rfl root _).mono
      fun _ s' ho ⟨entries, hdisplays⟩ => ⟨position, _, root, entries, ?_, hunit, ?_, hdisplays⟩
    · exact (ho.grows.units.keyAt _ hin).trans ((Registry.keyAt_push ..).trans (if_pos rfl))
    · rwa [hunit] at hroot

/-! ## 3. Expansions -/

theorem runs_expandWithin (hf : cx.facts.Closed) (t : TypeRef) :
    Runs cx n c s (expandWithin cx n t) fun o s' => s'.TypeIn o := by
  unfold expandWithin
  refine Runs.bind Asks.newType fun e s₁ _ ⟨_, hnew, _⟩ => ?_
  refine (Runs.withinType hnew.loose
    (runs_fillUnaliased hf (lawful_requestsWithin hf n) rfl hnew.blank)).bind
    fun _ s₂ _ ⟨⟨_, hloose⟩, _⟩ => ?_
  refine (Runs.complete hloose (Store.typeDone_of_loose hloose)).bind fun _ s₃ ho _ => .pure ?_
  exact .some (hloose.1.mono ho.extends)

end ApiReference.Build
