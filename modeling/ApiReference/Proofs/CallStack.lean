/-
  Facts that are deeper than a call stack.

  Fillings nest as deep as the facts lead from one record to the next, and facts without any cycle may
  lead arbitrarily deep.  A line of types, each standing for the keys of the next, is the plainest case:
  its facts link, no class reaches itself, and the filling of each type asks for the next one before it
  ends.  So on every host a line of more types than the call stack holds fillings uses the stack up.

  1. `lineDocument`, `lineFacts`  -- the line, and what linking makes of it;
  2. `Build.line_endless`         -- its fillings, nested;
  3. `Session.line_overflows`     -- the request for its first type.
-/
import ApiReference.Proofs.Facts.Linked
import ApiReference.Proofs.Session
import Mathlib

namespace ApiReference

/-! ## 1. A line of types -/

/-- The ids of the types in a line: `T0`, `T1`, `T2` and so on. -/
def lineId (i : Nat) : String := "T" ++ toString i

theorem lineId_injective : Function.Injective lineId := fun _ _ h =>
  Nat.repr_inj.1 (String.append_right_inj "T" |>.1 h)

/-- The id of the type after another in a line of `n`. -/
def lineNext (n i : Nat) : Option String := if i + 1 < n then some (lineId (i + 1)) else none

/-- The types of a line: each has the keys of the next one, and the last those of nothing. -/
def lineTypes (n : Nat) : Link.Fields :=
  (List.range n).map fun i => (lineId i, .map [("flags", .str "INDEX"),
    ("target", ((lineNext n i).map Value.str).getD .null)])

/-- **A line of types.** -/
def lineDocument (n : Nat) : Value := .map [("types", .map (lineTypes n))]

/-- The facts of a type in a line. -/
def lineType (n i : Nat) : TypeFacts :=
  { flags := TypeFlags.keyQueries, target := (lineNext n i).map .mk }

/-- The facts of a line. -/
def lineFacts (n : Nat) : Facts where
  types := (List.range n).map fun i => (lineId i, lineType n i)

namespace Link

/-- The record of `keyof T` refers to `T` alone. -/
theorem linkType_keyOf (d : Declared) (v : Value) :
    linkType d [("flags", .str "INDEX"), ("target", v)] =
      (do return { flags := TypeFlags.keyQueries, target := ← d.type v }) := by
  have hflags : (Flags.parse (.str "INDEX") : Except Fault TypeFlags) = .ok TypeFlags.keyQueries := rfl
  have hfields : linkType d [("flags", .str "INDEX"), ("target", v)] = (do
      let flags ← Flags.parse (.str "INDEX")
      let target ← d.type v
      return { flags, target }) := rfl
  rw [hfields, hflags]
  rfl

/-- A declared id is read. -/
theorem type_declared {d : Declared} {id : String} (hid : id ∈ d.types) :
    d.type (.str id) = .ok (some ⟨id⟩) := by
  have hread : reference .types d.types (.str id) = .ok (some id) :=
    if_pos (List.contains_iff_mem.2 hid)
  show (do return (← reference .types d.types (.str id)).map TypeId.mk) = _
  rw [hread]
  rfl

theorem keys_lineTypes (n : Nat) : (lineTypes n).map Prod.fst = (List.range n).map lineId := by
  rw [lineTypes, List.map_map]
  rfl

/-- One type of a line, where the line is declared. -/
theorem linkType_line {d : Declared} {n : Nat} (hd : d.types = (List.range n).map lineId) (i : Nat) :
    linkType d [("flags", .str "INDEX"), ("target", ((lineNext n i).map Value.str).getD .null)] =
      .ok (lineType n i) := by
  rw [linkType_keyOf, lineType]
  unfold lineNext
  split
  · rename_i hi
    have hmem : lineId (i + 1) ∈ d.types := hd ▸ List.mem_map_of_mem (List.mem_range.2 hi)
    simp only [Option.map_some, Option.getD_some, type_declared hmem]
    rfl
  · rfl

/-- **A line is linked.** -/
theorem link_line (n : Nat) : Facts.link (lineDocument n) = .ok (lineFacts n) := by
  let tables : Section → Fields := fun t => if t = .types then lineTypes n else []
  have htables : ∀ t, tableOf [("types", .map (lineTypes n))] t = .map (tables t) := by
    intro t
    cases t <;> rfl
  refine (link_eq_ok htables).2 ⟨fun t => ?_, [], rfl, .nil⟩
  cases t with
  | types =>
    show (lineTypes n).Forall₂ _ (lineFacts n).types
    rw [lineTypes, lineFacts, List.forall₂_map_left_iff, List.forall₂_map_right_iff,
      List.forall₂_same]
    exact fun i _ => ⟨rfl, _, rfl, linkType_line (keys_lineTypes n) i⟩
  | _ => exact .nil

end Link

theorem lookup_lineFacts {n i : Nat} (hi : i < n) :
    (lineFacts n).types.lookup (lineId i) = some (lineType n i) := by
  have hkeys : ((lineFacts n).types.map Prod.fst).Nodup := by
    rw [lineFacts, List.map_map]
    exact List.nodup_range.map lineId_injective
  exact (Link.lookup_eq_some hkeys).2 (List.mem_map.2 ⟨i, List.mem_range.2 hi, rfl⟩)

theorem type_lineFacts {n i : Nat} (hi : i < n) :
    (lineFacts n).type (.known ⟨lineId i⟩) = lineType n i := by
  show ((lineFacts n).types.lookup (lineId i)).getD {} = _
  rw [lookup_lineFacts hi]
  rfl

/-- No type of a line has a base. -/
theorem basesAcyclic_lineFacts (n : Nat) : (lineFacts n).BasesAcyclic := by
  refine Facts.basesAcyclic_of_listedLater fun id hid b hb => ?_
  rw [Facts.typeIds, lineFacts, List.map_map] at hid
  obtain ⟨i, hi, rfl⟩ := List.mem_map.1 hid
  have hnone : ((lineFacts n).type (.known ⟨lineId i⟩)).baseTypes = [] :=
    congrArg TypeFacts.baseTypes (type_lineFacts (List.mem_range.1 hi))
  exact absurd (hnone ▸ hb) List.not_mem_nil

/-! ## 2. Fillings along a line -/

namespace Build

variable {cx : Context} {s : Store}

/-- A filling of `keyof T` asks for the record of `T`. -/
theorem fillTypeExpr_keyOf {r : Requests} {t : TypeRef} {u : TypeId} (h : TypeHandle)
    (ht : cx.facts.type t = { flags := TypeFlags.keyQueries, target := some u }) :
    fillTypeExpr cx r (some t) h = (do
      modifyType h (fun e => { e with raw := some t })
      modifyType h (fun e => { e with kind := .keyOf })
      let target ← r.type (some (.known u))
      modifyType h (fun e => { e with target := some target })) := by
  have hunaliased : fillTypeExpr cx r (some t) h = fillUnaliased cx r t h := by
    simp only [fillTypeExpr, present, orFault, pure_bind, ht]
  rw [hunaliased]
  simp only [fillUnaliased, fillOther, typeOrError, ht]
  rfl

/-- Where the request for `T` fails, the filling of `keyof T` does. -/
theorem fill_keyOf_error {r : Requests} {t : TypeRef} {u : TypeId} {h : TypeHandle} {f : Fault}
    (ht : cx.facts.type t = { flags := TypeFlags.keyQueries, target := some u })
    (hu : ∀ s' : Store, s'.types.find? = s.types.find? → ((r.type (some (.known u))).run s').1 = .error f) :
    ((fillTypeExpr cx r (some t) h).run s).1 = .error f := by
  let types := (s.types.modify h.index fun e => { e with raw := some t }).modify h.index fun e =>
    { e with kind := .keyOf }
  have htypes : types.find? = s.types.find? := by
    funext k
    rw [Registry.find?_modify, Registry.find?_modify]
  have hpart := hu { s with types } htypes
  rw [fillTypeExpr_keyOf h ht]
  exact congrArg Prod.fst (run_bind_error (Prod.ext hpart rfl))

/-- A request fails where its filling does. -/
theorem requestType_error {fill : Option TypeRef → TypeHandle → Build PUnit} {key : Option TypeRef}
    {f : Fault} (hnew : s.types.find? key = none)
    (hfill : ((fill key ⟨s.types.size⟩).run (s.enter.register (.type key))).1 = .error f) :
    ((requestType fill key).run s).1 = .error f := by
  rw [requestType_new hnew]
  rcases hr : (fill key ⟨s.types.size⟩).run (s.enter.register (.type key)) with ⟨result, s'⟩
  rw [hr] at hfill
  cases hfill
  rfl

/-- **Fillings along a line nest one in the other** until there is no room, where the types from there on
    have no record yet. -/
theorem line_endless {n room i : Nat} (hfacts : cx.facts = lineFacts n) (hroom : i + room < n)
    (hnew : ∀ j, i ≤ j → s.types.find? (some (.known ⟨lineId j⟩)) = none) :
    (((requestsWithin cx room).type (some (.known ⟨lineId i⟩))).run s).1 = .error .endless := by
  induction room generalizing i s with
  | zero => exact requestType_error (hnew i (Nat.le_refl i)) rfl
  | succ room ih =>
    have hnext : i + 1 < n := by omega
    have htype : cx.facts.type (.known ⟨lineId i⟩) =
        { flags := TypeFlags.keyQueries, target := some ⟨lineId (i + 1)⟩ } := by
      rw [hfacts, type_lineFacts (Nat.lt_of_succ_lt hnext), lineType, lineNext, if_pos hnext]
      rfl
    refine requestType_error (hnew i (Nat.le_refl i)) (fill_keyOf_error htype fun s' hs' => ?_)
    refine ih (by omega) fun j hj => ?_
    -- the types further on have no record yet
    have hne : some (some (TypeRef.known ⟨lineId i⟩)) ≠ some (some (.known ⟨lineId j⟩)) := by
      intro he
      simp only [Option.some.injEq, TypeRef.known.injEq, TypeId.mk.injEq] at he
      exact absurd (lineId_injective he) (by omega)
    rw [hs']
    exact (Registry.find?_push_ne hne ..).trans (hnew j (by omega))

end Build

/-! ## 3. A line deeper than the stack -/

namespace Session

/-- **A line of more types than the call stack holds fillings**, on any host that reads the default
    configuration: it is linked, no class in it reaches itself, and the request for its first type runs
    out of call stack. -/
theorem line_overflows {host : Host} {settings : Settings} {n : Nat}
    (hsettings : Settings.ofConfig host defaultConfig = .ok settings) (hn : host.fillings < n) :
    ∃ s, Session.start (lineDocument n) none host = .ok s ∧ s.facts.BasesAcyclic ∧
      ((step (.request (.type (.type (lineId 0))))).run s).1 = .error .endless := by
  let s : Session := { facts := lineFacts n, config := none, host }
  let w : Workspace := {
    context := { facts := lineFacts n, settings, host }
    style := { limits := settings.limits, rawText := (lineFacts n).recordText }
    config := defaultConfig }
  have hstart : Session.start (lineDocument n) none host = .ok s := by
    rw [Session.start, Link.link_line]
    rfl
  have hw : s.workspace? = .ok w := by
    show Workspace.ofFacts (lineFacts n) none host = _
    rw [Workspace.ofFacts, Option.getD_none, hsettings]
    rfl
  refine ⟨s, hstart, basesAcyclic_lineFacts n, ?_⟩
  have hrun : (((Build.requestsWithin w.context host.fillings).type (some (.known ⟨lineId 0⟩))).run {}).1 =
      .error .endless :=
    Build.line_endless rfl (by omega) fun j _ => Array.findIdx?_empty
  have hdeclared : (lineFacts n).declaredType (lineId 0) = .ok ⟨lineId 0⟩ := by
    rw [Facts.declaredType, lookup_lineFacts (Nat.zero_lt_of_lt hn)]
    rfl
  have hchoose : ((Build.chooseType w.context (.type (lineId 0))).run {}).1 = .error .endless := by
    rw [Build.chooseType, hdeclared]
    exact hrun
  rw [step, run_build_ok hw]
  exact congrArg Prod.fst (run_bind_error (Prod.ext hchoose rfl))

end Session

end ApiReference
