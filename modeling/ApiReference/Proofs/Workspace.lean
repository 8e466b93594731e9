/-
  Requests to a workspace.

  Every request finds the store at rest and leaves it at rest, whatever its outcome.  A record that was
  chosen is chosen again, and what was shown of it is shown again, in every later store.

  1. configurations     -- reading one always ends;
  2. `Build.Repeats`    -- builds that give the same in every later store;
  3. choices            -- and the handle that pins one down;
  4. renderings and data, asked again;
  5. `Workspace.Valid`, `Workspace.Later`, and the answers.
-/
import ApiReference.Proofs.Render.Repeat
import ApiReference.Workspace

namespace ApiReference

/-! ## 1. Configurations -/

theorem gives_index (v : Value) (key : String) : Gives False (fun _ => True) (v.index key) := by
  unfold Value.index
  split
  · split
    · trivial
    · exact .error (by decide)
  · exact .error (by decide)

theorem gives_getD (v : Value) (key : String) (d : Value) :
    Gives False (fun _ => True) (v.getD key d) := by
  unfold Value.getD
  split
  · trivial
  · exact .error (by decide)

theorem gives_toInt (v : Value) : Gives False (fun _ => True) v.toInt := by
  unfold Value.toInt
  split
  · trivial
  · trivial
  · split
    · trivial
    · exact .error (by split <;> decide)
  · split
    · trivial
    · exact .error (by decide)
  · exact .error (by decide)

theorem gives_limits (v : Value) : Gives False (fun _ => True) (Limits.ofConfig v) := by
  unfold Limits.ofConfig
  refine (gives_getD _ _ _).bind fun _ _ => (gives_toInt _).bind fun _ _ => ?_
  refine (gives_getD _ _ _).bind fun _ _ => (gives_toInt _).bind fun _ _ => ?_
  refine (gives_getD _ _ _).bind fun _ _ => (gives_toInt _).bind fun _ _ => ?_
  exact (gives_getD _ _ _).bind fun _ _ => (gives_toInt _).bind fun _ _ => trivial

theorem gives_eventPattern (host : Host) (v : Value) :
    Gives False (fun _ => True) (readEventPattern host v) := by
  unfold readEventPattern
  split
  · split
    · trivial
    · exact .error (by decide)
  · exact .error (by decide)

/-- **Reading the settings ends.** -/
theorem gives_settings (host : Host) (v : Value) :
    Gives False (fun _ => True) (Settings.ofConfig host v) := by
  unfold Settings.ofConfig
  refine (gives_index _ _).bind fun _ _ => (gives_index _ _).bind fun _ _ => ?_
  refine (gives_eventPattern _ _).bind fun _ _ => (gives_index _ _).bind fun _ _ => ?_
  exact (gives_index _ _).bind fun _ _ => (gives_limits _).bind fun _ _ => trivial

/-! ## 2. Asked again -/

namespace Build

/-- **A build that gives `a` in every later store**, and changes nothing there. -/
abbrev Repeats {α : Type} (cx : Context) (x : Build α) (a : α) (s : Store) : Prop :=
  (Store.resting cx).Repeats x a s

variable {α β : Type} {cx : Context} {s : Store}

theorem repeats_ask {x : Except Fault α} {a : α} {g : α → Build β} {b : β} (hx : x = .ok a)
    (hg : Repeats cx (g a) b s) : Repeats cx (orFault x >>= g) b s := by
  rw [hx]
  exact hg

/-- **A rendering that came to its end** is the same in every later store. -/
theorem repeats_settled {render : Model → Rendering α} {a : α}
    (h : render s.toModel = .ok a)
    (hkeeps : ∀ s', s.Frozen s' → Lasts (render s.toModel) (render s'.toModel)) :
    Repeats cx (settled cx render) a s :=
  fun s' hfrozen _ => run_settled (hkeeps s' hfrozen a h)

/-! ## 3. Choices -/

theorem position?_nat {size i : Nat} (h : i < size) : Registry.position? size (i : Int) = some i := by
  simp [Registry.position?, h]

theorem lt_of_position? {size : Nat} {i : Int} {h : Nat} (hi : Registry.position? size i = some h) :
    h < size := by
  unfold Registry.position? at hi
  split at hi
  · split at hi
    · cases hi
      assumption
    · exact nomatch hi
  · split at hi
    · cases hi
      omega
    · exact nomatch hi

end Build

/-- **The choice of the record that is chosen now**: a handle counted from the end names another
    record once there are more. -/
def MemberChoice.pin (size : Nat) : MemberChoice → MemberChoice
  | .symbol id => .symbol id
  | .handle i => match Registry.position? size i with
    | some h => .handle h
    | none => .handle i

def TypeChoice.pin (size : Nat) : TypeChoice → TypeChoice
  | .type id => .type id
  | .handle i => match Registry.position? size i with
    | some h => .handle h
    | none => .handle i

namespace Facts

variable {f : Facts}

theorem gives_declaredSymbol (id : String) :
    Gives False (fun s => f.SymbolKey (some s)) (f.declaredSymbol id) := by
  unfold declaredSymbol
  split
  · rename_i h
    obtain ⟨facts, hfacts⟩ := Option.isSome_iff_exists.1 h
    exact symbolKey_some (List.mem_map.2 ⟨_, lookup_mem hfacts, rfl⟩)
  · exact .error (by decide)

theorem gives_declaredType (id : String) :
    Gives False (fun t => f.TypeKey (some (.known t))) (f.declaredType id) := by
  unfold declaredType
  split
  · rename_i h
    obtain ⟨facts, hfacts⟩ := Option.isSome_iff_exists.1 h
    exact typeKey_known (List.mem_map.2 ⟨_, lookup_mem hfacts, rfl⟩)
  · exact .error (by decide)

end Facts

theorem MemberChoice.pin_handle {size : Nat} {i : Int} {h : Nat}
    (hi : Registry.position? size i = some h) : (MemberChoice.handle i).pin size = .handle h := by
  rw [pin, hi]

theorem TypeChoice.pin_handle {size : Nat} {i : Int} {h : Nat}
    (hi : Registry.position? size i = some h) : (TypeChoice.handle i).pin size = .handle h := by
  rw [pin, hi]

namespace Build

section Choices

variable {cx : Context} {s : Store}

/-- A record that was requested is found again. -/
theorem repeats_member {key : Option SymbolId} {h : MemberHandle}
    (hfind : s.members.find? key = some h.index) : Repeats cx ((requests cx).member key) h s :=
  fun _ hfrozen hs => member_found hs.sound.calm (hfrozen.grows.members.find? _ _ hfind)

theorem repeats_type {key : Option TypeRef} {h : TypeHandle}
    (hfind : s.types.find? key = some h.index) : Repeats cx ((requests cx).type key) h s :=
  fun _ hfrozen hs => type_found hs.sound.calm (hfrozen.grows.types.find? _ _ hfind)

theorem repeats_memberHandle {h : Nat} (hh : h < s.members.size) :
    Repeats cx (chooseMember cx (.handle h)) ⟨h⟩ s := by
  intro s' hfrozen _
  rw [chooseMember, run_get, position?_nat (Nat.lt_of_lt_of_le hh hfrozen.grows.members.size)]
  rfl

theorem repeats_typeHandle {h : Nat} (hh : h < s.types.size) :
    Repeats cx (chooseType cx (.handle h)) ⟨h⟩ s := by
  intro s' hfrozen _
  rw [chooseType, run_get, position?_nat (Nat.lt_of_lt_of_le hh hfrozen.grows.types.size)]
  rfl

variable (hf : cx.facts.Closed) {d : Demand} {hang : Prop} (hhang : ¬ cx.HasRoom s → hang)
include hf hhang

/-- **A member that was chosen is there**, and is chosen again. -/
theorem between_chooseMember (c : MemberChoice) :
    Between cx d hang s (chooseMember cx c) fun h s' =>
      s'.HasMember h ∧ Repeats cx (chooseMember cx (c.pin s.members.size)) h s' := by
  cases c with
  | symbol id =>
    have hgives := Gives.and_ok (Facts.gives_declaredSymbol (f := cx.facts) id)
    rw [chooseMember]
    refine .ask (hgives.weaken False.elim) fun symbol hsymbol => ?_
    refine (between_member hhang hf hsymbol.2).mono fun h s' hfind => ?_
    exact ⟨Registry.lt_size_of_find? hfind, repeats_ask hsymbol.1 (repeats_member hfind)⟩
  | handle i =>
    rw [chooseMember]
    refine .readState ?_
    cases hi : Registry.position? s.members.size i with
    | none => exact .throw fun e => nomatch e
    | some h =>
      rw [MemberChoice.pin_handle hi]
      exact .pure fun _ => ⟨lt_of_position? hi, repeats_memberHandle (lt_of_position? hi)⟩

/-- **A type that was chosen is there**, and is chosen again. -/
theorem between_chooseType (c : TypeChoice) :
    Between cx d hang s (chooseType cx c) fun h s' =>
      s'.HasType h ∧ Repeats cx (chooseType cx (c.pin s.types.size)) h s' := by
  cases c with
  | type id =>
    have hgives := Gives.and_ok (Facts.gives_declaredType (f := cx.facts) id)
    rw [chooseType]
    refine .ask (hgives.weaken False.elim) fun t ht => ?_
    refine (between_type hhang hf ht.2).mono fun h s' hfind => ?_
    exact ⟨Registry.lt_size_of_find? hfind, repeats_ask ht.1 (repeats_type hfind)⟩
  | handle i =>
    rw [chooseType]
    refine .readState ?_
    cases hi : Registry.position? s.types.size i with
    | none => exact .throw fun e => nomatch e
    | some h =>
      rw [TypeChoice.pin_handle hi]
      exact .pure fun _ => ⟨lt_of_position? hi, repeats_typeHandle (lt_of_position? hi)⟩

end Choices

end Build

/-! ## 4. Workspaces -/

/-- **A workspace over linked facts**, with its store at rest. -/
structure Workspace.Valid (f : Facts) (w : Workspace) : Prop where
  facts : w.context.facts = f
  text : w.style.rawText = f.recordText
  rest : w.store.AtRest w.context

/-- **A later state of a workspace**: the same facts and settings, and every record as it was. -/
structure Workspace.Later (w w' : Workspace) : Prop where
  same : w' = { w with store := w'.store }
  store : w.store.Frozen w'.store

theorem Workspace.Later.refl (w : Workspace) : w.Later w := ⟨rfl, .refl _⟩

theorem Workspace.Later.trans {w w' w'' : Workspace} (h : w.Later w') (h' : w'.Later w'') :
    w.Later w'' where
  same := by rw [h'.same, h.same]
  store := h.store.trans h'.store

/-- **A new workspace is valid**, and opening it ends. -/
theorem Workspace.gives_ofFacts (f : Facts) (config : Option Value) (host : Host) :
    Gives False (fun w => w.Valid f ∧ w.context.host = host ∧ w.store = {})
      (Workspace.ofFacts f config host) := by
  unfold Workspace.ofFacts
  exact (gives_settings _ _).bind fun settings _ => ⟨⟨rfl, rfl, .empty⟩, rfl, rfl⟩

/-- The checker's own text of a record does not depend on what is worked out on first use. -/
theorem Workspace.Valid.steady {f : Facts} {w : Workspace} (hw : w.Valid f) : w.style.Steady := by
  intro t t' hlater
  rw [hw.text, hlater.fields]
  rfl

/-- What a request shows of a record. -/
def Request.Shows : Request → Prop
  | .render _ | .text _ | .dump _ => True
  | _ => False

/-- The request for the records that are chosen now. -/
def Request.pin (s : Store) : Request → Request
  | .render c => .render (c.pin s.types.size)
  | .text c => .text (c.pin s.types.size)
  | .dump c => .dump (c.pin s.members.size)
  | r => r

/-- The requests that build records and show nothing of them. -/
def Request.Builds : Request → Prop
  | .member _ | .type _ | .expand _ | .branches _ | .alias_ _ => True
  | _ => False

/-- **What a request may work out**: an alias is expanded where that is asked for, and what shows
    records resolves their branches. -/
def Request.demand : Request → Demand
  | .expand _ | .alias_ _ => .expansions
  | .branches _ | .render _ | .text _ | .dump _ => .branches fun _ => True
  | _ => .nothing

/-- The data of one unit, as a dump of all units makes it. -/
def Workspace.unitData (w : Workspace) (u : UnitHandle) : Build Value := do
  let output ← Build.orFault (Output.ofConfig w.config)
  Build.settled w.context (fun m => Dump.unit w.style m output (m.unit u))

namespace Workspace

open Build

variable {f : Facts} {w : Workspace} (hf : f.Closed) (hw : w.Valid f) {s : Store}
include hf hw

/-- **A rendering is the same in every later store.** -/
theorem between_render (c : TypeChoice) : Between w.context (.branches fun _ => True) True s
    (w.answer (.render c)) fun a s' => Repeats w.context (w.answer (.render (c.pin s.types.size))) a s' := by
  have hclosed : w.context.facts.Closed := hw.facts ▸ hf
  rw [answer]
  refine (between_chooseType hclosed (fun _ => trivial) c).bind fun h s₁ _ hchoice => ?_
  refine (between_settled hclosed (fun _ _ => trivial) _).bind fun tokens s₂ hfrozen htokens => .holds fun hs => ?_
  refine Between.ask (Gives.and_ok (Gives.any _)) fun text htext => .pure fun _ => ?_
  refine (hchoice.2.later hfrozen.toFrozen).bind ?_
  refine (repeats_settled htokens fun s' hlater => ?_).bind (repeats_ask htext.1 (.pure _ _))
  exact Style.lasts_tokens hs.sound hlater hw.steady (.some (hchoice.1.mono hfrozen.grows.extends))

/-- **So are the texts of a type.** -/
theorem between_text (c : TypeChoice) : Between w.context (.branches fun _ => True) True s
    (w.answer (.text c)) fun a s' => Repeats w.context (w.answer (.text (c.pin s.types.size))) a s' := by
  have hclosed : w.context.facts.Closed := hw.facts ▸ hf
  rw [answer]
  refine (between_chooseType hclosed (fun _ => trivial) c).bind fun h s₁ _ hchoice => ?_
  refine (between_settled hclosed (fun _ _ => trivial) _).bind fun text s₂ hfrozen htext => .holds fun hs => ?_
  have hin : s₂.HasType h := hchoice.1.mono hfrozen.grows.extends
  refine Between.readType (.pure fun _ => (hchoice.2.later hfrozen.toFrozen).bind ?_)
  refine (repeats_settled htext fun s' hlater => ?_).bind fun s' hlater _ => ?_
  · exact Style.lasts_text hs.sound hlater hw.steady (.some hin)
  · have hraw := hw.steady _ _ (hlater.type h hin)
    show (Except.ok (Answer.value (.list [.str text, .str (w.style.rawText (s'.type h))])), s') = _
    rw [hraw]

/-- **So is the data of a member.** -/
theorem between_dump (c : MemberChoice) : Between w.context (.branches fun _ => True) True s
    (w.answer (.dump c)) fun a s' => Repeats w.context (w.answer (.dump (c.pin s.members.size))) a s' := by
  have hclosed : w.context.facts.Closed := hw.facts ▸ hf
  rw [answer]
  refine Between.ask (Gives.and_ok (Gives.any _)) fun output houtput => ?_
  refine (between_chooseMember hclosed (fun _ => trivial) c).bind fun h s₁ _ hchoice => ?_
  refine (between_settled hclosed (fun _ _ => trivial) _).bind fun value s₂ hfrozen hvalue => .holds fun hs => ?_
  refine .pure fun _ => repeats_ask houtput.1 ((hchoice.2.later hfrozen.toFrozen).bind ?_)
  refine (repeats_settled hvalue fun s' hlater => ?_).bind (.pure _ _)
  exact Dump.lasts_member hs.sound hlater hw.steady output (hchoice.1.mono hfrozen.grows.extends)

variable {d : Demand} (hd : ∀ pair h, d (.branches pair) h)
include hd

/-- **The data of a unit** is that of its record in every later store. -/
theorem between_unitShown {u : UnitHandle} (hu : s.HasUnit u) :
    Between w.context d True s (w.unitData u) fun v s' =>
      ∀ s'', s'.Frozen s'' → ∃ o, Output.ofConfig w.config = .ok o ∧
        Dump.unit w.style s''.toModel o (s''.unit u) = .ok v := by
  have hclosed : w.context.facts.Closed := hw.facts ▸ hf
  unfold unitData
  -- What the dump gives must be said of every later store, since the units after this one still resolve
  -- branches; it lasts because the dump had resolved all that it read.
  refine Between.ask (Gives.and_ok (Gives.any _)) fun o ho => ?_
  intro hs
  obtain ⟨⟨hrest, hfrozen⟩, hgives⟩ := between_settled hclosed hd
    (fun m => Dump.unit w.style m o (m.unit u)) hs
  refine ⟨⟨hrest, hfrozen⟩, hgives.mono fun v hv => ⟨hv.1, fun s'' hlater => ⟨o, ho.1, ?_⟩⟩⟩
  exact Dump.lasts_unit hrest.sound hlater hw.steady o
    (Nat.lt_of_lt_of_le hu hfrozen.grows.units.size) v hv.2

theorem between_unitsShown {us : List UnitHandle} (hus : ∀ u ∈ us, s.HasUnit u) :
    Between w.context d True s (us.mapM w.unitData) fun vs s' =>
      ∀ s'', s'.Frozen s'' → List.Forall₂ (fun u v => ∃ o, Output.ofConfig w.config = .ok o ∧
        Dump.unit w.style s''.toModel o (s''.unit u) = .ok v) us vs := by
  induction us generalizing s with
  | nil => exact .pure fun _ _ _ => .nil
  | cons u us ih =>
    rw [List.mapM_cons]
    refine (between_unitShown hf hw hd (hus u List.mem_cons_self)).bind fun v s₁ hfrozen hv => ?_
    refine (ih fun x hx => ?_).bind fun vs s₂ hfrozen' hvs => .pure fun _ s'' hlater => ?_
    · exact Nat.lt_of_lt_of_le (hus x (List.mem_cons_of_mem u hx)) hfrozen.grows.units.size
    · exact .cons (hv s'' (hfrozen'.toFrozen.trans hlater)) (hvs s'' hlater)

/-- **So it is the same** when it is asked for again. -/
theorem between_unitsData {us : List UnitHandle} (hus : ∀ u ∈ us, s.HasUnit u) :
    Between w.context d True s (us.mapM w.unitData) fun vs s' =>
      Repeats w.context (us.mapM w.unitData) vs s' := by
  refine (between_unitsShown hf hw hd hus).mono fun vs s' hvs s'' hlater _ => ?_
  refine run_mapM ((hvs s'' hlater).imp fun u v ⟨o, ho, hv⟩ => ?_)
  have hread : (Build.orFault (Output.ofConfig w.config)).run s'' = (.ok o, s'') := by
    rw [ho]
    rfl
  rw [unitData, run_bind_ok hread]
  exact run_settled hv

omit hd

/-- **Requests that build end**, where the call stack has room for them. -/
theorem between_builds {hang : Prop} (hhang : ¬ w.context.HasRoom s → hang) {r : Request} (hr : r.Builds) :
    Between w.context r.demand hang s (w.answer r) fun _ _ => True := by
  have hclosed : w.context.facts.Closed := hw.facts ▸ hf
  have hlater : ∀ s₁, s.Held r.demand s₁ → ¬ w.context.HasRoom s₁ → hang :=
    fun s₁ hheld h => hhang (mt (·.later hheld.grows) h)
  cases r with
  | member c =>
    exact (between_chooseMember hclosed hhang c).bind fun h s₁ _ _ => .pure fun _ => trivial
  | type c => exact (between_chooseType hclosed hhang c).bind fun h s₁ _ _ => .pure fun _ => trivial
  | expand c =>
    refine (between_chooseType hclosed hhang c).bind fun h s₁ hheld _ => ?_
    exact (between_expansion (hlater s₁ hheld) hclosed fun _ => trivial).bind
      fun e s₂ _ _ => .pure fun _ => trivial
  | branches c =>
    refine (between_chooseType hclosed hhang c).bind fun h s₁ hheld _ => ?_
    refine (between_branches (hlater s₁ hheld) hclosed fun _ => trivial).bind fun b s₂ _ _ => ?_
    split <;> exact .pure fun _ => trivial
  | alias_ c =>
    refine (between_chooseMember hclosed hhang c).bind fun h s₁ hheld _ => ?_
    exact (between_aliasedType (hlater s₁ hheld) hclosed (fun _ _ => trivial) h).bind
      fun e s₂ _ _ => .pure fun _ => trivial
  | _ => exact False.elim hr

/-- **Every request leaves the store at rest**, and what it shows it shows again. -/
theorem between_answer (r : Request) : Between w.context r.demand True s (w.answer r) fun a s' =>
    r.Shows → Repeats w.context (w.answer (r.pin s)) a s' := by
  have hclosed : w.context.facts.Closed := hw.facts ▸ hf
  -- a request that only builds shows nothing that is asked for again
  have hbuilds : r.Builds → Between w.context r.demand True s (w.answer r) fun a s' =>
      r.Shows → Repeats w.context (w.answer (r.pin s)) a s' := by
    intro hr
    refine (between_builds hf hw (fun _ => trivial) hr).mono fun a s' _ hshows => ?_
    cases r <;> first | exact False.elim hr | exact False.elim hshows
  have hhang : ¬ w.context.HasRoom s → True := fun _ => trivial
  have hmember := between_chooseMember (s := s) (d := .nothing) hclosed hhang
  have htype := between_chooseType (s := s) (d := .nothing) hclosed hhang
  cases r with
  | member c => exact hbuilds trivial
  | type c => exact hbuilds trivial
  | expand c => exact hbuilds trivial
  | branches c => exact hbuilds trivial
  | alias_ c => exact hbuilds trivial
  | render c => exact (between_render hf hw c).mono fun a s' h _ => h
  | text c => exact (between_text hf hw c).mono fun a s' h _ => h
  | dump c => exact (between_dump hf hw c).mono fun a s' h _ => h
  | properties c =>
    refine (htype c).bind fun h s₁ _ _ => ?_
    exact (between_propertiesOf (fun _ => trivial) hclosed h).bind fun hs s₂ _ _ => .pure fun _ => nofun
  | group c =>
    refine (hmember c).bind fun h s₁ _ _ => .readState ?_
    exact Between.ask (Gives.any _) fun view _ => .pure fun _ => nofun
  | ancestor c => exact (hmember c).bind fun h s₁ _ _ => .readState (.pure fun _ => nofun)
  | memberForm c => exact (hmember c).bind fun h s₁ _ _ => Between.readMember (.pure fun _ => nofun)
  | typeForm c => exact (htype c).bind fun h s₁ _ _ => .readState (.pure fun _ => nofun)
  | cachedMember id =>
    exact .readState (Between.ask (Gives.any _) fun _ _ => .pure fun _ => nofun)
  | cachedType id => exact .readState (Between.ask (Gives.any _) fun _ _ => .pure fun _ => nofun)
  | counts => exact .readState (.pure fun _ => nofun)
  | warnings => exact .readState (.pure fun _ => nofun)
  | arena => exact .pure fun _ => nofun

end Workspace

end ApiReference
