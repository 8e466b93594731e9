/-
  The walks up a class hierarchy.

  A class or an interface has its own properties, then those of its base types.  A member is looked up by
  name in its own table, then in those of its base types.  Neither walk remembers where it has been: it
  unfolds a base as often as it meets it, and comes to an end exactly where no class above is its own
  ancestor.

  1. the walks, one type at a time;
  2. `Above`, `Gapless`   -- the types that a walk meets, and nothing missing in them;
  3. `walks_end_iff`      -- the walks end exactly without a cycle above.
-/
import ApiReference.Proofs.Facts.Hierarchy

namespace ApiReference

namespace Facts

variable (f : Facts)

/-! ## 1. One type -/

/-- The escaped name of a property that is there. -/
def nameOf (p : Option SymbolId) : Option String := p.map fun s => (f.symbol s).escapedName

/-- The member of a name in the table of a type's own symbol. -/
def tableMember (t : TypeRef) (name : String) : Option SymbolId :=
  match (f.type t).symbol with
  | none => none
  | some s => ((f.symbol s).members.lookup name).join

/-- The escaped names of properties; a missing one is a fault. -/
def namesOf (ps : List (Option SymbolId)) : Except Fault (List String) :=
  ps.mapM fun p => do return (f.symbol (← present p)).escapedName

/-- The properties of one base, added to those collected so far. -/
def addBase (list : Option TypeRef → Except Fault (List (Option SymbolId)))
    (collected : List String × List (Option SymbolId)) (base : Option TypeId) :
    Except Fault (List String × List (Option SymbolId)) := do
  f.addUnshadowed collected.1 collected.2 (← list (base.map .known))

variable {f}

@[simp] theorem ownMember_some (t : TypeRef) (name : String) :
    f.ownMember (some t) name = .ok (f.tableMember t name) := by
  show (match (f.type t).symbol with | none => _ | some s => _) = _
  unfold tableMember
  cases (f.type t).symbol <;> rfl

/-- A type that is no class has its own properties. -/
theorem propertiesWithin_other {t : TypeRef} (ht : ¬ f.IsClass t) (n : Nat) :
    f.propertiesWithin (n + 1) (some t) = .ok (f.type t).properties := by
  unfold propertiesWithin
  exact if_neg ht

/-- **The properties of a class**: its own, and what its bases add. -/
theorem propertiesWithin_class {t : TypeRef} (ht : f.IsClass t) (n : Nat) :
    f.propertiesWithin (n + 1) (some t) = (do
      let names ← f.namesOf (f.type t).properties
      let collected ← (f.type t).baseTypes.foldlM (f.addBase (f.propertiesWithin n))
        (names, (f.type t).properties)
      return collected.2) := by
  rw [propertiesWithin]
  exact if_pos ht

/-- The properties of a class are what is collected at its last base. -/
theorem propertiesWithin_eq_ok {t : TypeRef} (ht : f.IsClass t) {n : Nat}
    {ps : List (Option SymbolId)} : f.propertiesWithin (n + 1) (some t) = .ok ps ↔
      ∃ names names', f.namesOf (f.type t).properties = .ok names ∧
        (f.type t).baseTypes.foldlM (f.addBase (f.propertiesWithin n)) (names, (f.type t).properties) =
          .ok (names', ps) := by
  rw [propertiesWithin_class ht, bind_eq_ok]
  refine exists_congr fun names => ?_
  rw [exists_and_left, bind_eq_ok]
  refine and_congr_right fun _ => ⟨?_, ?_⟩
  · rintro ⟨r, hfold, hr⟩
    cases hr
    exact ⟨r.1, hfold⟩
  · rintro ⟨names', hfold⟩
    exact ⟨(names', ps), hfold, rfl⟩

theorem lookupWithin_found {t : TypeRef} {name : String} {s : SymbolId}
    (h : f.tableMember t name = some s) (n : Nat) :
    f.lookupWithin name (n + 1) (some t) = .ok (some s) := by
  rw [lookupWithin, ownMember_some, h]
  rfl

theorem lookupWithin_other {t : TypeRef} (ht : ¬ f.IsClass t) {name : String}
    (h : f.tableMember t name = none) (n : Nat) :
    f.lookupWithin name (n + 1) (some t) = .ok none := by
  rw [lookupWithin, ownMember_some, h]
  exact if_neg ht

/-- **A member of a class** that its own table lacks is that of the first base that has it. -/
theorem lookupWithin_class {t : TypeRef} (ht : f.IsClass t) {name : String}
    (h : f.tableMember t name = none) (n : Nat) : f.lookupWithin name (n + 1) (some t) =
      firstFound (fun base => f.lookupWithin name n (base.map .known)) (f.type t).baseTypes := by
  rw [lookupWithin, ownMember_some, h]
  exact if_pos ht

/-! ## 2. What a walk meets -/

variable (f)

/-- A base type of a class or an interface. -/
def UpStep (a b : TypeRef) : Prop :=
  f.IsClass a ∧ ∃ t, some t ∈ (f.type a).baseTypes ∧ b = .known t

/-- **The types that a walk meets**: the type itself, and the bases of every class or interface among
    them. -/
def Above (t x : TypeRef) : Prop := Relation.ReflTransGen f.UpStep t x

/-- **Nothing is missing** among the properties and base types that a walk meets. -/
def Gapless (t : TypeRef) : Prop :=
  ∀ x, f.Above t x → none ∉ (f.type x).properties ∧ none ∉ (f.type x).baseTypes

variable {f}

theorem Above.base {a x : TypeRef} (ha : f.IsClass a) {b : TypeId} (hb : some b ∈ (f.type a).baseTypes)
    (h : f.Above (.known b) x) : f.Above a x := .head ⟨ha, b, hb, rfl⟩ h

theorem Gapless.base {a : TypeRef} (h : f.Gapless a) (ha : f.IsClass a) {b : TypeId}
    (hb : some b ∈ (f.type a).baseTypes) : f.Gapless (.known b) := fun x hx => h x (hx.base ha hb)

/-- What holds of every type of the table, and of one that is not in it, holds of every type. -/
theorem forall_type {P : TypeFacts → Prop} (herror : P .error) (hempty : P {})
    (h : ∀ id ∈ f.typeIds, P (f.type (.known ⟨id⟩))) (t : TypeRef) : P (f.type t) := by
  cases t with
  | error => exact herror
  | known id =>
    by_cases hid : id.text ∈ f.typeIds
    · exact h id.text hid
    · have hmissing : f.types.lookup id.text = none := by
        rw [List.lookup_eq_none_iff]
        intro e he
        rw [bne_iff_ne]
        intro hsame
        exact hid (List.mem_map.2 ⟨e, he, hsame.symm⟩)
      rw [type, hmissing]
      exact hempty

/-- A cycle above a type that is not its end is above one of its bases. -/
theorem exists_cyclic_base {t : TypeRef} (h : ¬ f.AcyclicAbove t) :
    f.IsClass t ∧ ∃ b, some b ∈ (f.type t).baseTypes ∧ ¬ f.AcyclicAbove (.known b) := by
  unfold AcyclicAbove at h
  push Not at h
  obtain ⟨x, hx, hcycle⟩ := h
  have hnext : ∃ c, f.BaseStep t c ∧ Relation.ReflTransGen f.BaseStep c x := by
    rcases Relation.ReflTransGen.cases_head hx with rfl | hnext
    · exact Relation.TransGen.head'_iff.1 hcycle
    · exact hnext
  obtain ⟨c, ⟨ht, -, b, hb, rfl⟩, hbx⟩ := hnext
  exact ⟨ht, b, hb, fun hac => hac x hbx hcycle⟩

/-! ## 3. Walks that end -/

theorem firstFound_cons_none {α β : Type} {find : α → Except Fault (Option β)} {a : α} {xs : List α}
    (ha : find a = .ok none) : firstFound find (a :: xs) = firstFound find xs := by
  rw [firstFound, ha]
  rfl

theorem firstFound_cons_some {α β : Type} {find : α → Except Fault (Option β)} {a : α} {b : β}
    (ha : find a = .ok (some b)) (xs : List α) : firstFound find (a :: xs) = .ok (some b) := by
  rw [firstFound, ha]
  rfl

theorem firstFound_eq_none {α β : Type} {find : α → Except Fault (Option β)} {xs : List α} :
    firstFound find xs = .ok none ↔ ∀ a ∈ xs, find a = .ok none := by
  induction xs with
  | nil => exact ⟨fun _ a ha => absurd ha List.not_mem_nil, fun _ => rfl⟩
  | cons a xs ih =>
    rw [List.forall_mem_cons]
    constructor
    · intro h
      obtain ⟨o, ha, h⟩ := bind_eq_ok.1 h
      cases o with
      | none => exact ⟨ha, ih.1 h⟩
      | some b => exact nomatch h
    · rintro ⟨ha, hxs⟩
      rw [firstFound_cons_none ha]
      exact ih.2 hxs

/-- What is found is found by any search that finds the same. -/
theorem firstFound_eq_ok {α β : Type} {find find' : α → Except Fault (Option β)} {xs : List α}
    (hfind : ∀ a ∈ xs, ∀ o, find a = .ok o → find' a = .ok o) {o : Option β}
    (h : firstFound find xs = .ok o) : firstFound find' xs = .ok o := by
  induction xs with
  | nil => exact h
  | cons a xs ih =>
    obtain ⟨first, ha, hrest⟩ := bind_eq_ok.1 h
    refine bind_eq_ok.2 ⟨first, hfind a List.mem_cons_self first ha, ?_⟩
    cases first with
    | some b => exact hrest
    | none => exact ih (fun x hx => hfind x (List.mem_cons_of_mem a hx)) hrest

/-- Names of properties of which none is missing. -/
theorem exists_names {ps : List (Option SymbolId)} (hps : none ∉ ps) :
    ∃ names, f.namesOf ps = .ok names := by
  unfold namesOf
  induction ps with
  | nil => exact ⟨[], rfl⟩
  | cons p ps ih =>
    obtain ⟨names, hnames⟩ := ih fun h => hps (List.mem_cons_of_mem p h)
    cases p with
    | none => exact absurd List.mem_cons_self hps
    | some s =>
      refine ⟨(f.symbol s).escapedName :: names, ?_⟩
      rw [List.mapM_cons, hnames]
      rfl

theorem settles_addUnshadowed {hang : Prop} {names : List String} {done ps : List (Option SymbolId)}
    (hdone : none ∉ done) (hps : none ∉ ps) :
    Settles hang (fun r => none ∉ r.2) (f.addUnshadowed names done ps) := by
  induction ps generalizing names done with
  | nil => exact hdone
  | cons p ps ih =>
    have hrest : none ∉ ps := fun h => hps (List.mem_cons_of_mem p h)
    cases p with
    | none => exact absurd List.mem_cons_self hps
    | some s =>
      show Settles _ _ (if _ then _ else _)
      split
      · exact ih hdone hrest
      · refine ih (fun h => ?_) hrest
        rcases List.mem_append.1 h with h | h
        · exact hdone h
        · exact nomatch List.mem_singleton.1 h

/-- **One step of the listing**: it settles if it does so at every base. -/
theorem settles_propertiesWithin {hang : Prop} {n : Nat} {t : TypeRef} (hgaps : f.Gapless t)
    (hbases : f.IsClass t → ∀ b, some b ∈ (f.type t).baseTypes →
      Settles hang (fun ps => none ∉ ps) (f.propertiesWithin n (some (.known b)))) :
    Settles hang (fun ps => none ∉ ps) (f.propertiesWithin (n + 1) (some t)) := by
  obtain ⟨hproperties, hnone⟩ := hgaps t .refl
  by_cases ht : f.IsClass t
  · rw [propertiesWithin_class ht]
    obtain ⟨names, hnames⟩ := exists_names (f := f) hproperties
    rw [hnames]
    have hfold : Settles hang (fun r => none ∉ r.2) ((f.type t).baseTypes.foldlM
        (f.addBase (f.propertiesWithin n)) (names, (f.type t).properties)) := by
      refine Settles.foldlM (fun r b hb hr => ?_) hproperties
      cases b with
      | none => exact absurd hb hnone
      | some b => exact (hbases ht b hb).bind fun ps hps => settles_addUnshadowed hr hps
    exact hfold.bind fun _ h => h
  · rw [propertiesWithin_other ht]
    exact hproperties

/-- **One step of the look-up** of a name that the table of the type lacks. -/
theorem settles_lookupWithin {hang : Prop} {n : Nat} {t : TypeRef} {name : String}
    (hgaps : f.Gapless t) (hlacks : f.tableMember t name = none)
    (hbases : f.IsClass t → ∀ b, some b ∈ (f.type t).baseTypes →
      Settles hang (· = none) (f.lookupWithin name n (some (.known b)))) :
    Settles hang (· = none) (f.lookupWithin name (n + 1) (some t)) := by
  obtain ⟨-, hnone⟩ := hgaps t .refl
  by_cases ht : f.IsClass t
  · rw [lookupWithin_class ht hlacks]
    have hall : ∀ bases : List (Option TypeId), bases ⊆ (f.type t).baseTypes →
        Settles hang (· = none)
          (firstFound (fun base => f.lookupWithin name n (base.map .known)) bases) := by
      intro bases
      induction bases with
      | nil => exact fun _ => rfl
      | cons b bases ih =>
        intro hsub
        obtain ⟨hb, hrest⟩ := List.cons_subset.1 hsub
        cases b with
        | none => exact absurd hb hnone
        | some b =>
          unfold firstFound
          refine (hbases ht b hb).bind fun o ho => ?_
          subst ho
          exact ih hrest
    exact hall _ (List.Subset.refl _)
  · rw [lookupWithin_other ht hlacks]
    rfl

section Ends

variable {t : TypeRef}

/-- Without gaps a listing has a result or goes on for ever. -/
theorem Gapless.settles_properties (hgaps : f.Gapless t) (n : Nat) :
    Settles True (fun ps => none ∉ ps) (f.propertiesWithin n (some t)) := by
  induction n generalizing t with
  | zero => exact ⟨rfl, trivial⟩
  | succ n ih => exact settles_propertiesWithin hgaps fun ht b hb => ih (hgaps.base ht hb)

theorem Gapless.settles_lookup (hgaps : f.Gapless t) {name : String}
    (hlacks : ∀ x, f.Above t x → f.tableMember x name = none) (n : Nat) :
    Settles True (· = none) (f.lookupWithin name n (some t)) := by
  induction n generalizing t with
  | zero => exact ⟨rfl, trivial⟩
  | succ n ih =>
    refine settles_lookupWithin hgaps (hlacks t .refl) fun ht b hb => ?_
    exact ih (hgaps.base ht hb) fun x hx => hlacks x (hx.base ht hb)

/-- Without a cycle above, a listing comes to its end. -/
theorem Gapless.exists_properties (hgaps : f.Gapless t) (hac : f.AcyclicAbove t) {n : Nat}
    (hn : f.baseDepth ≤ n) : ∃ ps, f.propertiesWithin n (some t) = .ok ps := by
  -- That nothing is missing in the result is part of the statement, as each base's listing is read again.
  have hsettles := base_induction_above (f := f) (t := some t)
    (P := fun n t => ∀ a, t = some a → f.Gapless a →
      Settles False (fun ps => none ∉ ps) (f.propertiesWithin n (some a)))
    (fun n t ih a ha hgaps => settles_propertiesWithin hgaps fun hclass b hb =>
      ih a ha hclass (some b) hb _ rfl (hgaps.base hclass hb))
    (fun a ha => Option.some.inj ha ▸ hac) hn t rfl hgaps
  obtain ⟨ps, hps, -⟩ := hsettles.exists_ok
  exact ⟨ps, hps⟩

theorem Gapless.lookup_eq_none (hgaps : f.Gapless t) (hac : f.AcyclicAbove t) {name : String}
    (hlacks : ∀ x, f.Above t x → f.tableMember x name = none) {n : Nat} (hn : f.baseDepth ≤ n) :
    f.lookupWithin name n (some t) = .ok none := by
  have hsettles := base_induction_above (f := f) (t := some t)
    (P := fun n t => ∀ a, t = some a → f.Gapless a →
      (∀ x, f.Above a x → f.tableMember x name = none) →
      Settles False (· = none) (f.lookupWithin name n (some a)))
    (fun n t ih a ha hgaps hlacks => settles_lookupWithin hgaps (hlacks a .refl)
      fun hclass b hb => ih a ha hclass (some b) hb _ rfl (hgaps.base hclass hb)
        fun x hx => hlacks x (hx.base hclass hb))
    (fun a ha => Option.some.inj ha ▸ hac) hn t rfl hgaps hlacks
  obtain ⟨o, ho, rfl⟩ := hsettles.exists_ok
  exact ho

/-- **A listing that ends has no cycle above**: it ended at every base, one step earlier. -/
theorem acyclicAbove_of_properties {n : Nat} {ps : List (Option SymbolId)}
    (h : f.propertiesWithin n (some t) = .ok ps) : f.AcyclicAbove t := by
  induction n generalizing t ps with
  | zero => exact nomatch h
  | succ n ih =>
    -- A cycle above is one above some base, whose listing ended with less depth.
    by_contra hcyclic
    obtain ⟨ht, b, hb, hbase⟩ := exists_cyclic_base hcyclic
    obtain ⟨names, names', -, hfold⟩ := (propertiesWithin_eq_ok ht).1 h
    obtain ⟨s, s', hstep⟩ := exists_ok_of_foldlM hfold (some b) hb
    obtain ⟨ps, hlist, -⟩ := bind_eq_ok.1 hstep
    exact hbase (ih hlist)

/-- A look-up that finds nothing has no cycle above. -/
theorem acyclicAbove_of_lookup {n : Nat} {name : String}
    (h : f.lookupWithin name n (some t) = .ok none) : f.AcyclicAbove t := by
  induction n generalizing t with
  | zero => exact nomatch h
  | succ n ih =>
    by_contra hcyclic
    obtain ⟨ht, b, hb, hbase⟩ := exists_cyclic_base hcyclic
    cases hown : f.tableMember t name with
    | some s =>
      rw [lookupWithin_found hown] at h
      exact nomatch h
    | none =>
      rw [lookupWithin_class ht hown] at h
      exact hbase (ih (firstFound_eq_none.1 h (some b) hb))

end Ends

/-- A listing that ends is the same at any greater depth. -/
theorem propertiesWithin_succ {n : Nat} {t : Option TypeRef} {ps : List (Option SymbolId)}
    (h : f.propertiesWithin n t = .ok ps) : f.propertiesWithin (n + 1) t = .ok ps := by
  induction n generalizing t ps with
  | zero => exact nomatch h
  | succ n ih =>
    cases t with
    | none => exact h
    | some t =>
      by_cases ht : f.IsClass t
      · obtain ⟨names, names', hnames, hfold⟩ := (propertiesWithin_eq_ok ht).1 h
        refine (propertiesWithin_eq_ok ht).2 ⟨names, names', hnames, foldlM_eq_ok ?_ hfold⟩
        intro b _ s r hstep
        obtain ⟨ps, hlist, hadd⟩ := bind_eq_ok.1 hstep
        exact bind_eq_ok.2 ⟨ps, ih hlist, hadd⟩
      · rw [propertiesWithin_other ht] at h ⊢
        exact h

theorem propertiesWithin_of_le {n m : Nat} (hn : n ≤ m) {t : Option TypeRef}
    {ps : List (Option SymbolId)} (h : f.propertiesWithin n t = .ok ps) :
    f.propertiesWithin m t = .ok ps := by
  induction hn with
  | refl => exact h
  | step _ ih => exact propertiesWithin_succ ih

/-- A look-up that ends is the same at any greater depth. -/
theorem lookupWithin_succ {name : String} {n : Nat} {t : Option TypeRef} {o : Option SymbolId}
    (h : f.lookupWithin name n t = .ok o) : f.lookupWithin name (n + 1) t = .ok o := by
  induction n generalizing t o with
  | zero => exact nomatch h
  | succ n ih =>
    cases t with
    | none => exact h
    | some t =>
      cases hown : f.tableMember t name with
      | some s =>
        rw [lookupWithin_found hown] at h ⊢
        exact h
      | none =>
        by_cases ht : f.IsClass t
        · rw [lookupWithin_class ht hown] at h ⊢
          exact firstFound_eq_ok (fun _ _ _ hfound => ih hfound) h
        · rw [lookupWithin_other ht hown] at h ⊢
          exact h

theorem lookupWithin_of_le {name : String} {n m : Nat} (hn : n ≤ m) {t : Option TypeRef}
    {o : Option SymbolId} (h : f.lookupWithin name n t = .ok o) : f.lookupWithin name m t = .ok o := by
  induction hn with
  | refl => exact h
  | step _ ih => exact lookupWithin_succ ih

/-- **The walks end exactly without a cycle above.**  Let nothing be missing among the properties and
    base types that a walk from a type meets.  The properties of the type are listed if and only if no
    class or interface that it leads to, through base types that are all classes or interfaces, reaches
    itself; how deep the walk may go makes no difference then, and otherwise no depth is enough.  The
    look-up of a name that is in no table on the way finds nothing under the same condition, and
    otherwise no depth is enough for it either.  The call stack is taken to hold the walk, which is as
    deep as the longest path above the type; a walk that it does not hold is cut like one without end. -/
theorem walks_end_iff {t : TypeRef} (hgaps : f.Gapless t) :
    ((∃ ps, f.propertiesOf (some t) = .ok ps) ↔ f.AcyclicAbove t) ∧
    (∀ ps, f.propertiesOf (some t) = .ok ps →
      ∀ depth, f.baseDepth ≤ depth → f.propertiesWithin depth (some t) = .ok ps) ∧
    (¬ f.AcyclicAbove t → ∀ depth, f.propertiesWithin depth (some t) = .error .endless) ∧
    ∀ name, (∀ x, f.Above t x → f.ownMember (some x) name = .ok none) →
      (f.lookupMember (some t) name = .ok none ↔ f.AcyclicAbove t) ∧
      (f.AcyclicAbove t → ∀ depth, f.baseDepth ≤ depth →
        f.lookupWithin name depth (some t) = .ok none) ∧
      (¬ f.AcyclicAbove t → ∀ depth, f.lookupWithin name depth (some t) = .error .endless) := by
  refine ⟨⟨fun ⟨ps, hps⟩ => acyclicAbove_of_properties hps, fun hac => ?_⟩, fun ps hps depth hdepth => ?_,
    fun hcyclic depth => ?_, fun name hlacks => ?_⟩
  · exact hgaps.exists_properties hac (Nat.le_refl _)
  · exact propertiesWithin_of_le hdepth hps
  · refine (hgaps.settles_properties depth).eq_endless fun ps hps => ?_
    exact hcyclic (acyclicAbove_of_properties hps)
  · have htables : ∀ x, f.Above t x → f.tableMember x name = none := by
      intro x hx
      have hown := hlacks x hx
      rw [ownMember_some] at hown
      exact Except.ok.inj hown
    have hends : f.AcyclicAbove t → ∀ depth, f.baseDepth ≤ depth →
        f.lookupWithin name depth (some t) = .ok none :=
      fun hac depth hdepth => hgaps.lookup_eq_none hac htables hdepth
    refine ⟨⟨fun h => acyclicAbove_of_lookup h, fun hac => hends hac _ (Nat.le_refl _)⟩, hends,
      fun hcyclic depth => ?_⟩
    -- at any depth the look-up finds nothing or goes on for ever, and it cannot end with a cycle
    -- above
    have hsettles := hgaps.settles_lookup htables depth
    refine hsettles.eq_endless fun o ho => ?_
    rw [ho] at hsettles
    cases (hsettles : o = none)
    exact hcyclic (acyclicAbove_of_lookup ho)

/-- A table of types in which nothing is missing has no gaps. -/
theorem gapless_of_table
    (h : ∀ id ∈ f.typeIds, none ∉ (f.type (.known ⟨id⟩)).properties ∧
      none ∉ (f.type (.known ⟨id⟩)).baseTypes) (t : TypeRef) : f.Gapless t :=
  fun x _ => forall_type (P := fun d => none ∉ d.properties ∧ none ∉ d.baseTypes)
    (by decide) (by decide) h x

/-- A class over two that have one base in common, and a class that is its own base. -/
def diamondDocument : Value := .map [
  ("symbols", .map [
    ("D", .map [("name", .str "D"), ("members", .map [("own", .str "own")])]),
    ("L", .map [("name", .str "L"), ("members", .map [("left", .str "left")])]),
    ("R", .map [("name", .str "R"), ("members", .map [("name", .str "Rname")])]),
    ("T", .map [("name", .str "T"), ("members", .map [("name", .str "Tname")])]),
    ("own", .map [("name", .str "own")]),
    ("left", .map [("name", .str "left")]),
    ("Rname", .map [("name", .str "name")]),
    ("Tname", .map [("name", .str "name")])]),
  ("types", .map [
    ("TD", .map [("objectFlags", .str "CLASS"), ("symbol", .str "D"),
      ("properties", .list [.str "own"]), ("baseTypes", .list [.str "TL", .str "TR"])]),
    ("TL", .map [("objectFlags", .str "CLASS"), ("symbol", .str "L"),
      ("properties", .list [.str "left"]), ("baseTypes", .list [.str "TT"])]),
    ("TR", .map [("objectFlags", .str "CLASS"), ("symbol", .str "R"),
      ("properties", .list [.str "Rname"]), ("baseTypes", .list [.str "TT"])]),
    ("TT", .map [("objectFlags", .str "INTERFACE"), ("symbol", .str "T"),
      ("properties", .list [.str "Tname"])]),
    ("TX", .map [("objectFlags", .str "CLASS"), ("baseTypes", .list [.str "TX"])])])]

/-- What is found out about these classes. -/
theorem exists_diamond : ∃ f, Facts.link diamondDocument = .ok f ∧ (∀ t, f.Gapless t) ∧
    f.propertiesOf (some (.known ⟨"TD"⟩)) = .ok [some ⟨"own"⟩, some ⟨"left"⟩, some ⟨"Tname"⟩] ∧
    (∀ ps, f.propertiesOf (some (.known ⟨"TX"⟩)) ≠ .ok ps) ∧
    (∀ t, f.tableMember t "other" = none) ∧ (f.symbol ⟨"Tname"⟩).escapedName = "name" ∧
    ∀ t, (f.type t).properties.filter (fun p => f.nameOf p = some "name") =
      (f.tableMember t "name").toList.map some := by
  have hcheck : (Facts.link diamondDocument).toOption.any (fun f => decide (
      (∀ id ∈ f.typeIds, none ∉ (f.type (.known ⟨id⟩)).properties ∧
        none ∉ (f.type (.known ⟨id⟩)).baseTypes) ∧
      (f.propertiesOf (some (.known ⟨"TD"⟩))).toOption =
        some [some ⟨"own"⟩, some ⟨"left"⟩, some ⟨"Tname"⟩] ∧
      (f.propertiesOf (some (.known ⟨"TX"⟩))).toOption = none ∧
      (∀ id ∈ f.typeIds, f.tableMember (.known ⟨id⟩) "other" = none) ∧
      (f.symbol ⟨"Tname"⟩).escapedName = "name" ∧
      ∀ id ∈ f.typeIds, ((f.type (.known ⟨id⟩)).properties.filter fun p => f.nameOf p = some "name") =
        (f.tableMember (.known ⟨id⟩) "name").toList.map some)) = true := by decide +kernel
  obtain ⟨f, hlink, hfound⟩ := exists_ok_of_any hcheck
  obtain ⟨hgaps, hlisted, hcut, hother, hname, htables⟩ := of_decide_eq_true hfound
  refine ⟨f, hlink, gapless_of_table hgaps, ok_of_toOption hlisted, fun ps hps => ?_, ?_, hname, ?_⟩
  · rw [hps] at hcut
    cases hcut
  · exact forall_type (P := fun d => (match d.symbol with
      | none => none
      | some s => ((f.symbol s).members.lookup "other").join) = none) rfl rfl hother
  · exact forall_type (P := fun d => d.properties.filter (fun p => f.nameOf p = some "name") =
      (match d.symbol with
      | none => none
      | some s => ((f.symbol s).members.lookup "name").join).toList.map some) rfl rfl htables

/-- The walks from the class over two others end, and those from the class over itself do not. -/
theorem walks_end_iff_diamond : ∃ f, Facts.link diamondDocument = .ok f ∧
    (∃ ps, f.propertiesOf (some (.known ⟨"TD"⟩)) = .ok ps) ∧ f.AcyclicAbove (.known ⟨"TD"⟩) ∧
    ¬ f.AcyclicAbove (.known ⟨"TX"⟩) ∧
    (∀ depth, f.propertiesWithin depth (some (.known ⟨"TX"⟩)) = .error .endless) ∧
    ∀ depth, f.lookupWithin "other" depth (some (.known ⟨"TX"⟩)) = .error .endless := by
  obtain ⟨f, hlink, hgaps, hlisted, hcut, hother, -⟩ := exists_diamond
  obtain ⟨hends, -⟩ := walks_end_iff (hgaps (.known ⟨"TD"⟩))
  obtain ⟨hcyclic, -, hendless, hmissing⟩ := walks_end_iff (hgaps (.known ⟨"TX"⟩))
  have hcycle : ¬ f.AcyclicAbove (.known ⟨"TX"⟩) := by
    intro hac
    obtain ⟨ps, hps⟩ := hcyclic.2 hac
    exact hcut ps hps
  have howned : ∀ x, f.Above (.known ⟨"TX"⟩) x → f.ownMember (some x) "other" = .ok none := by
    intro x _
    rw [ownMember_some, hother]
  exact ⟨f, hlink, ⟨_, hlisted⟩, hends.1 ⟨_, hlisted⟩, hcycle, hendless hcycle,
    (hmissing "other" howned).2.2 hcycle⟩

end Facts

end ApiReference
