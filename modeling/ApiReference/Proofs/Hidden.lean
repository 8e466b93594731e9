/-
  What a dump shows of hidden members.

  A record that is private or marked to be ignored is hidden, unless the configuration has it shown.
  Lists of members leave hidden records out, at every depth and in the units.  The records beside a
  record, its overloads and what it is merged with, are dumped whatever their marks.

  1. `besideIn`           -- the records beside a record;
  2. `Dump.ShowsUnit`     -- the data of a unit, with what is shown at each of its places;
  3. the units of a session;
  4. `hidden_only_beside` -- hidden records appear beside others only, and there they do.
-/
import ApiReference.Proofs.Dump
import ApiReference.Proofs.Session

namespace ApiReference

namespace Dump

/-! ## 1. Beside a record -/

/-- **The records beside a record**: its overloads and the records it is merged with. -/
def besideIn (m : Model) (h : MemberHandle) : List (Option MemberHandle) :=
  (m.member h).overloads.getD [] ++ [(m.member h).classOrInterface, (m.member h).namespace_]

section Places

variable {m : Model} {o : Output} {root h : MemberHandle} {path : List MemberHandle}

/-- What is beside a record is dumped inside it. -/
theorem beside_mem {h' : MemberHandle} (hin : some h' ∈ besideIn m h) : some h' ∈ nestedIn m o h :=
  List.mem_append_left _ hin

/-- What is dumped inside a record stands beside it, or is shown. -/
theorem beside_or_shown {h' : MemberHandle} (hin : some h' ∈ nestedIn m o h) :
    some h' ∈ besideIn m h ∨ o.shows (m.member h') = true := by
  rcases List.mem_append.1 hin with hbeside | hchild
  · exact .inl hbeside
  · exact .inr (List.mem_filter.1 hchild).2

/-- **Every place but the first is shown**, or stands beside the record that encloses it. -/
theorem Stands.shown (hpath : Stands m o root path h) (hroot : o.shows (m.member root) = true) :
    o.shows (m.member h) = true ∨ ∃ x rest, path = x :: rest ∧ some h ∈ besideIn m x := by
  cases hpath with
  | root => exact .inl hroot
  | inside _ _ hin =>
    rcases beside_or_shown hin with hbeside | hshown
    · exact .inr ⟨_, _, rfl, hbeside⟩
    · exact .inl hshown

end Places

/-! ## 2. Units -/

/-- **The data of a unit**: the members that are shown, in order, with everything inside them; a record
    inside that is not shown stands beside the one that encloses it. -/
def ShowsUnit (st : Style) (m : Model) (o : Output) (u : UnitRecord) (v : Value) : Prop :=
  ∃ (fields : Entries) (entries : List (MemberHandle × Value)),
    v = .map (fields ++ [("members", .list (entries.map Prod.snd))]) ∧
    entries.map Prod.fst = u.members.filter (fun h => o.shows (m.member h)) ∧
    ∀ e ∈ entries, Dumped st m o [] e.1 e.2 ∧ ∀ path h, Stands m o e.1 path h →
      o.shows (m.member h) = true ∨ ∃ x rest, path = x :: rest ∧ some h ∈ besideIn m x

theorem showsUnit_of_unit {st : Style} {m : Model} {o : Output} {u : UnitRecord} {v : Value}
    (hv : unit st m o u = .ok v) : ShowsUnit st m o u v := by
  unfold unit at hv
  obtain ⟨members, hmembers, hv⟩ := bind_eq_ok.1 hv
  cases hv
  obtain ⟨entries, hhandles, rfl, hentries⟩ := entries_of_shownMembers hmembers
  have hshown : entries.map Prod.fst = u.members.filter fun h => o.shows (m.member h) := by
    have hsome : (entries.map Prod.fst).map some =
        (u.members.filter fun h => o.shows (m.member h)).map some := by
      rw [List.map_map]
      exact hhandles.trans List.filter_map
    exact List.map_injective_iff.2 (Option.some_injective _) hsome
  refine ⟨_, entries, rfl, hshown, fun e he => ?_⟩
  have hlisted : e.1 ∈ u.members.filter fun h => o.shows (m.member h) :=
    hshown ▸ List.mem_map_of_mem he
  refine ⟨dumped_of_memberWithin (hentries e he), fun path h hpath => ?_⟩
  exact hpath.shown (List.mem_filter.1 hlisted).2

end Dump

/-! ## 3. The units of a session -/

namespace Session

variable {s : Session}

/-- The data of units is that of their records in the workspace that the session then has. -/
theorem allows_unitsShown {d : Demand} (hd : ∀ pair h, d (.branches pair) h) {us : List UnitHandle}
    (hus : s.units = some us) : (working d).Allows True s (dumpOf us) fun vs s' =>
      ∃ w, s'.workspace = some w ∧ List.Forall₂ (fun u v => ∃ o, Output.ofConfig w.config = .ok o ∧
        Dump.unit w.style w.store.toModel o (w.store.unit u) = .ok v) us vs := by
  refine allows_build fun hs w hw => ?_
  obtain ⟨v, hv, hin⟩ := hs.units us hus
  cases hw.same v hv
  have hdata := Workspace.between_unitsShown hs.closed hw.valid hd hin
  exact hdata.mono fun vs store hvs => ⟨_, rfl, hvs store (.refl store)⟩

/-- **A dump of all units** gives the data of their records, in order. -/
theorem allows_dumpUnits : (working (Step.demand .dumpUnits)).Allows True s (step .dumpUnits) fun a s' =>
    ∃ vs w us, a = .value (.list vs) ∧ s'.workspace = some w ∧ s'.units = some us ∧
      List.Forall₂ (fun u v => ∃ o, Output.ofConfig w.config = .ok o ∧
        Dump.unit w.style w.store.toModel o (w.store.unit u) = .ok v) us vs := by
  rw [step]
  refine (allows_allUnits (fun _ _ _ => trivial) trivial).bind fun us s₁ _ hus => ?_
  refine (allows_unitsShown (fun _ _ => trivial) hus).bind fun vs s₂ hlater hvs => .pure fun _ => ?_
  obtain ⟨w, hw, hunits⟩ := hvs
  exact ⟨vs, w, us, rfl, hw, hlater.1.units us hus, hunits⟩

/-! ## 4. Hidden records -/

/-- **Hidden records appear beside others only.**  In every session that steps lead to, failed ones
    included, the dump of all units gives, for each unit in order, the members that are shown with
    everything inside them, at every depth.  A record in it that is private or to be ignored, and that
    the configuration does not have shown, is an overload of the record that encloses it, or merged with
    it; none is there as an entry of a list of members. -/
theorem hidden_only_beside {document : Value} {config : Option Value} (hs : Reachable document config s)
    {a : Answer} {s' : Session} (hrun : (step .dumpUnits).run s = (.ok a, s')) :
    ∃ vs w us, a = .value (.list vs) ∧ s'.workspace = some w ∧ s'.units = some us ∧
      List.Forall₂ (fun u v => ∃ o, Output.ofConfig w.config = .ok o ∧
        Dump.ShowsUnit w.style w.store.toModel o (w.store.unit u) v) us vs := by
  have hgives := (allows_dumpUnits hs.valid).2
  rw [hrun] at hgives
  obtain ⟨-, vs, w, us, rfl, hw, hus, hunits⟩ := hgives
  refine ⟨vs, w, us, rfl, hw, hus, hunits.imp fun u v hv => ?_⟩
  obtain ⟨o, ho, hunit⟩ := hv
  exact ⟨o, ho, Dump.showsUnit_of_unit hunit⟩

/-- A function with three declarations, the first of which is private. -/
def overloadsDocument : Value := .map [
  ("units", .list [.map [("name", .str "a"), ("symbol", .str "m")]]),
  ("symbols", .map [
    ("m", .map [("name", .str "m"), ("exports", .list [.str "f"])]),
    ("f", .map [("name", .str "f"), ("flags", .list [.str "Function"]),
      ("declarations", .list [.str "d", .str "e", .str "i"])])]),
  ("declarations", .map [
    ("d", .map [("signature", .str "x")]),
    ("e", .map [("signature", .str "y")]),
    ("i", .map [("signature", .str "z"), ("implementation", .bool true)])]),
  ("signatures", .map [
    ("x", .map [("tags", .map [("private", .str "")]), ("returnType", .str "T")]),
    ("y", .map [("returnType", .str "T")]),
    ("z", .map [("returnType", .str "T")])]),
  ("types", .map [("T", .map [("flags", .list [.str "Number"]), ("intrinsicName", .str "number")])])]

/-- All units can be dumped, and the first overload of the function is private. -/
theorem exists_overloads : ∃ s a s' w, Session.start overloadsDocument none = .ok s ∧
    (step .dumpUnits).run s = (.ok a, s') ∧ s'.workspace = some w ∧ s'.units = some [⟨0⟩] ∧
    Output.ofConfig w.config = .ok {} ∧ (w.store.unit ⟨0⟩).members = [⟨0⟩] ∧
    some ⟨1⟩ ∈ Dump.besideIn w.store.toModel ⟨0⟩ ∧
    Output.shows {} (w.store.member ⟨0⟩) = true ∧ Output.shows {} (w.store.member ⟨1⟩) = false := by
  have hcheck : (Session.start overloadsDocument none).toOption.any (fun s =>
      s.finds .dumpUnits (fun w => decide ((Output.ofConfig w.config).toOption = some {} ∧
        (w.store.unit ⟨0⟩).members = [⟨0⟩] ∧
        some ⟨1⟩ ∈ Dump.besideIn w.store.toModel ⟨0⟩ ∧
        Output.shows {} (w.store.member ⟨0⟩) = true ∧ Output.shows {} (w.store.member ⟨1⟩) = false)) &&
      decide (((step .dumpUnits).run s).2.units = some [⟨0⟩])) = true := by decide +kernel
  obtain ⟨s, hstart, hs⟩ := exists_start hcheck
  obtain ⟨hfinds, hunits⟩ := Bool.and_eq_true_iff.1 hs
  obtain ⟨a, s', w, hrun, hw, hfound⟩ := run_of_finds hfinds
  rw [hrun] at hunits
  obtain ⟨hoff, hrecords⟩ := of_decide_eq_true hfound
  exact ⟨s, a, s', w, hstart, hrun, hw, of_decide_eq_true hunits, ok_of_toOption hoff, hrecords⟩

/-- The private overload is in the data of the unit, and is found beside the function that it is an
    overload of. -/
theorem hidden_only_beside_overload : ∃ s a s' vs w, Reachable overloadsDocument none s ∧
    (step .dumpUnits).run s = (.ok a, s') ∧ a = .value (.list vs) ∧ s'.workspace = some w ∧
    List.Forall₂ (fun u v => ∃ o, Output.ofConfig w.config = .ok o ∧
      Dump.ShowsUnit w.style w.store.toModel o (w.store.unit u) v) [⟨0⟩] vs ∧
    some ⟨1⟩ ∈ Dump.besideIn w.store.toModel ⟨0⟩ := by
  obtain ⟨s, a, s', w, hstart, hrun, hw, hus, -, -, hbeside, -⟩ := exists_overloads
  obtain ⟨vs, w', us, ha, hw', hus', hunits⟩ := hidden_only_beside (.start hstart) hrun
  cases hw.symm.trans hw'
  cases hus.symm.trans hus'
  exact ⟨s, a, s', vs, w, .start hstart, hrun, ha, hw, hunits, hbeside⟩

/-- Whether the data of the units shows no hidden record: after every run, with both settings off, each
    place of the dump of a member that a unit shows is that of a record that is shown. -/
def LeavesHiddenOut (document : Value) (config : Option Value) : Prop :=
  ∀ s a s' w, Unfailing document config s → (step .dumpUnits).run s = (.ok a, s') →
    s'.workspace = some w → Output.ofConfig w.config = .ok {} → ∀ us, s'.units = some us → ∀ u ∈ us,
      ∀ root ∈ (w.store.unit u).members, Output.shows {} (w.store.member root) = true →
        ∀ path h, Dump.Stands w.store.toModel {} root path h → Output.shows {} (w.store.member h) = true

/-- **A private overload is dumped**: the filter is applied to lists of members, and not to overloads. -/
theorem private_overload_shown : ¬ LeavesHiddenOut overloadsDocument none := by
  obtain ⟨s, a, s', w, hstart, hrun, hw, hus, hoff, hmembers, hbeside, hshown, hhidden⟩ := exists_overloads
  have hstands : Dump.Stands w.store.toModel {} ⟨0⟩ [⟨0⟩] ⟨1⟩ :=
    .inside .root List.not_mem_nil (Dump.beside_mem hbeside)
  intro hout
  have hlisted : (⟨0⟩ : MemberHandle) ∈ (w.store.unit ⟨0⟩).members := by
    rw [hmembers]
    exact List.mem_cons_self
  have hagain := hout s a s' w (.start hstart) hrun hw hoff _ hus ⟨0⟩ List.mem_cons_self ⟨0⟩ hlisted hshown
  rw [hagain _ _ hstands] at hhidden
  cases hhidden

end Session

end ApiReference
