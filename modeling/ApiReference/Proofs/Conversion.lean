/-
  Types and their records.

  Where nothing failed, the record of a type shows the shape of the type, with the records that are
  registered for what stands in it.  A type that takes another's record over shows what the other showed
  when it was asked: all of it, if the other was filled by then.  It may not have been, in a cycle of
  types, and what is shown then depends on where the cycle was entered.

  1. types with a shape of their own;
  2. types that take another's record over;
  3. units, and the order in which they are asked for.
-/
import ApiReference.Proofs.Session

namespace ApiReference

namespace Session

variable {s : Session} {document : Value} {config : Option Value} {w : Workspace}

/-! ## 1. Shapes -/

/-- **Records mirror types.**  In every session of which no step failed, a registered type record is
    that of a type.  If the type takes over no other's record, it has a shape, and the record shows it:
    the kind of the shape, and in each place the record that is registered for what stands there. -/
theorem types_mirrored (hs : Unfailing document config s) (hw : s.workspace = some w)
    {k : Option TypeRef} {h : TypeHandle} (hk : w.store.IsType k h) :
    ∃ t, k = some t ∧ (w.context.facts.takenFrom t = none →
      ∃ shape, w.context.shape t = .ok shape ∧
        w.store.Shows w.context.facts t shape (w.store.type h)) := by
  have hwhole : w.store.Whole := by
    have h := hs.whole
    rwa [Session.store, hw] at h
  have hfilled : .type h ∈ w.store.filled := hwhole (.type k) h.index hk
  obtain ⟨before, hdone⟩ := hs.reachable.done hw hfilled
  obtain ⟨t, rfl, -, hmade⟩ := hdone k (Registry.keyAt_of_find? hk)
  refine ⟨t, rfl, fun hnone => ?_⟩
  rw [hnone] at hmade
  exact hmade

/-- Two types over each other: an object with a property, and the optional type of the property, which
    is the object again; and a unit for each. -/
def linkedDocument : Value := .map [
  ("units", .list [
    .map [("name", .str "a"), ("symbol", .str "ma")],
    .map [("name", .str "b"), ("symbol", .str "mb")]]),
  ("symbols", .map [
    ("ma", .map [("name", .str "ma"), ("exports", .list [.str "x"])]),
    ("mb", .map [("name", .str "mb"), ("exports", .list [.str "y"])]),
    ("x", .map [("name", .str "x"), ("type", .str "T")]),
    ("y", .map [("name", .str "y"), ("type", .str "U")]),
    ("next", .map [("name", .str "next"), ("type", .str "U")])]),
  ("types", .map [
    ("T", .map [("flags", .str "OBJECT"), ("objectFlags", .str "ANONYMOUS"),
      ("properties", .list [.str "next"])]),
    ("U", .map [("flags", .str "UNION"), ("types", .list [.str "T"]), ("nonOptional", .str "T")])])]

/-- Asked for the object, the optional type is filled while that is open. -/
abbrev FromObject (w : Workspace) : Prop :=
  w.store.types.find? (some (.known ⟨"T"⟩)) = some 0 ∧
  w.store.types.find? (some (.known ⟨"U"⟩)) = some 1 ∧
  w.context.facts.takenFrom (.known ⟨"T"⟩) = none ∧
  w.context.facts.takenFrom (.known ⟨"U"⟩) = some (.known ⟨"T"⟩) ∧
  (w.store.type ⟨0⟩).kind = .anonymousObject ∧
  (w.store.type ⟨1⟩).members ≠ (w.store.type ⟨0⟩).members

/-- Asked for the optional type, the object is filled before it. -/
abbrev FromOptional (w : Workspace) : Prop :=
  w.context.facts.takenFrom (.known ⟨"U"⟩) = some (.known ⟨"T"⟩) ∧
  w.store.types.find? (some (.known ⟨"U"⟩)) = some 0 ∧
  w.store.types.find? (some (.known ⟨"T"⟩)) = some 1 ∧
  w.store.filled.take 2 = [.type ⟨0⟩, .type ⟨1⟩] ∧
  (w.store.type ⟨1⟩).members = some [some ⟨0⟩]

/-- Both types can be asked for first. -/
theorem exists_linked : ∃ s, Session.start linkedDocument none = .ok s ∧
    s.finds (.request (.type (.type "T"))) (fun w => decide (FromObject w)) = true ∧
    s.finds (.request (.type (.type "U"))) (fun w => decide (FromOptional w)) = true := by
  have hcheck : (Session.start linkedDocument none).toOption.any (fun s =>
      s.finds (.request (.type (.type "T"))) (fun w => decide (FromObject w)) &&
      s.finds (.request (.type (.type "U"))) (fun w => decide (FromOptional w))) = true := by
    decide +kernel
  obtain ⟨s, hstart, hs⟩ := exists_start hcheck
  exact ⟨s, hstart, Bool.and_eq_true_iff.1 hs⟩

/-- The object shows its property, which was built while the object was still open. -/
theorem types_mirrored_linked : ∃ s w, Unfailing linkedDocument none s ∧ s.workspace = some w ∧
    (w.store.type ⟨0⟩).kind = .anonymousObject ∧
    ∃ shape, w.context.shape (.known ⟨"T"⟩) = .ok shape ∧
      w.store.Shows w.context.facts (.known ⟨"T"⟩) shape (w.store.type ⟨0⟩) := by
  obtain ⟨_, hstart, hfinds, -⟩ := exists_linked
  obtain ⟨s, w, hs, hw, hfound⟩ := exists_of_finds hstart hfinds
  obtain ⟨hfind, -, hnone, -, hkind, -⟩ := of_decide_eq_true hfound
  obtain ⟨t, ht, hshows⟩ := types_mirrored hs hw (h := ⟨0⟩) hfind
  cases ht
  exact ⟨s, w, hs, hw, hkind, hshows hnone⟩

/-! ## 2. Records taken over -/

/-- **A type that takes over a record that was filled before it shows what that shows**: the two agree
    but for the type they stand for and what is worked out on first use.  This holds in every session,
    failed steps included. -/
theorem collapsed_agrees (hs : Reachable document config s) (hw : s.workspace = some w)
    {t u : TypeRef} (hu : w.context.facts.takenFrom t = some u) {h source : TypeHandle}
    (hh : w.store.IsType (some t) h) (hsource : w.store.IsType (some u) source)
    (hbefore : w.store.FilledBefore (.type source) (.type h)) : w.store.Agrees h source := by
  obtain ⟨before, hlast, hmem⟩ := hbefore
  have hdone := hs.logged hw hlast
  obtain ⟨t', ht', -, hmade⟩ := hdone (some t) (Registry.keyAt_of_find? hh)
  cases ht'
  rw [hu] at hmade
  obtain ⟨source', hsource', hagrees⟩ := hmade
  have hsame : source' = source := by
    obtain ⟨i⟩ := source
    obtain ⟨j⟩ := source'
    exact congrArg TypeHandle.mk (Option.some.inj (hsource'.symm.trans hsource))
  subst hsame
  exact hagrees hmem

/-- Asked for the optional type, the object is filled before it, and both show the property. -/
theorem collapsed_agrees_linked : ∃ s w, Reachable linkedDocument none s ∧ s.workspace = some w ∧
    w.context.facts.takenFrom (.known ⟨"U"⟩) = some (.known ⟨"T"⟩) ∧
    w.store.IsType (some (.known ⟨"U"⟩)) ⟨0⟩ ∧ w.store.IsType (some (.known ⟨"T"⟩)) ⟨1⟩ ∧
    w.store.FilledBefore (.type ⟨1⟩) (.type ⟨0⟩) ∧ (w.store.type ⟨1⟩).members = some [some ⟨0⟩] ∧
    w.store.Agrees ⟨0⟩ ⟨1⟩ := by
  obtain ⟨_, hstart, -, hfinds⟩ := exists_linked
  obtain ⟨s, w, hs, hw, hfound⟩ := exists_of_finds hstart hfinds
  obtain ⟨htaken, houter, hinner, hfilled, hmembers⟩ := of_decide_eq_true hfound
  have hbefore : w.store.FilledBefore (.type ⟨1⟩) (.type ⟨0⟩) := by
    have hsplit := List.take_append_drop 2 w.store.filled
    rw [hfilled] at hsplit
    exact ⟨.type ⟨1⟩ :: w.store.filled.drop 2, hsplit ▸ List.suffix_rfl, List.mem_cons_self⟩
  exact ⟨s, w, hs.reachable, hw, htaken, houter, hinner, hbefore, hmembers,
    collapsed_agrees hs.reachable hw htaken houter hinner hbefore⟩

/-- **Asked for the object, the optional type is filled while the object is open**, and stays without
    the property, though no step failed. -/
theorem collapsed_left_open : ∃ s w, Unfailing linkedDocument none s ∧ s.workspace = some w ∧
    w.context.facts.takenFrom (.known ⟨"U"⟩) = some (.known ⟨"T"⟩) ∧
    w.store.IsType (some (.known ⟨"U"⟩)) ⟨1⟩ ∧ w.store.IsType (some (.known ⟨"T"⟩)) ⟨0⟩ ∧
    ¬ w.store.Agrees ⟨1⟩ ⟨0⟩ := by
  obtain ⟨_, hstart, hfinds, -⟩ := exists_linked
  obtain ⟨s, w, hs, hw, hfound⟩ := exists_of_finds hstart hfinds
  obtain ⟨hinner, houter, -, htaken, -, hmembers⟩ := of_decide_eq_true hfound
  refine ⟨s, w, hs, hw, htaken, houter, hinner, fun hagrees => hmembers ?_⟩
  have hbuilt : (w.store.type ⟨1⟩).built = _ := hagrees
  exact (congrArg TypeExpr.members hbuilt : (w.store.type ⟨1⟩).built.members = _)

/-! ## 3. Units -/

/-- The session after requests for units, if none of them fails. -/
def afterUnits (s : Session) : List String → Option Session
  | [] => some s
  | name :: names => match (step (.unit name)).run s with
    | (.ok _, s') => s'.afterUnits names
    | (.error _, _) => none

/-- The data of a unit by its name. -/
def unitShown (s : Session) (name : String) : Except Fault Value :=
  ((build fun w => do w.unitData (← Build.unitNamed w.context name)).run s).1

/-- Whether units are shown alike after requests for them in any order. -/
def OrderIndependent (document : Value) (config : Option Value) : Prop :=
  ∀ s, Session.start document config = .ok s → ∀ names names' : List String, names.Perm names' →
    ∀ s₁ s₂, s.afterUnits names = some s₁ → s.afterUnits names' = some s₂ →
      ∀ name ∈ names, s₁.unitShown name = s₂.unitShown name

/-- **The order of requests shows.**  The optional type has the property or not, by which of the two
    units is asked for first. -/
theorem order_matters : ¬ OrderIndependent linkedDocument none := by
  have hcheck : (Session.start linkedDocument none).toOption.any (fun s =>
      (s.afterUnits ["a", "b"]).any fun s₁ => (s.afterUnits ["b", "a"]).any fun s₂ =>
        decide ((s₁.unitShown "b").toOption.map Value.text ≠
          (s₂.unitShown "b").toOption.map Value.text)) = true := by decide +kernel
  obtain ⟨s, hstart, hs⟩ := exists_start hcheck
  obtain ⟨s₁, hfirst, hs₁⟩ := (Option.any_eq_true _ _).1 hs
  obtain ⟨s₂, hsecond, hs₂⟩ := (Option.any_eq_true _ _).1 hs₁
  intro hind
  have hsame := hind s hstart ["a", "b"] ["b", "a"] (.swap ..) s₁ s₂ hfirst hsecond "b" (by simp)
  refine of_decide_eq_true hs₂ ?_
  rw [hsame]

end Session

end ApiReference
