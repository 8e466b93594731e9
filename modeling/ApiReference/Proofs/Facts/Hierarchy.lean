/-
  Walks up a class hierarchy.

  The properties of a type and its members by name are collected along the base types of classes and
  interfaces.  No path without a repeated type is as deep as `baseDepth`, so a walk that is cut there or
  deeper has met a class that is its own ancestor.

  1. `BaseStep`, `BasesAcyclic` -- a class or interface and a base that is one, and no cycle of them;
     `AcyclicAbove`             -- no cycle that a type leads to;
     `WalksFit`                 -- no cycle, and depth enough for every walk;
  2. `base_induction`           -- what holds of a type once it holds of its bases;
  3. properties and members by name are declared, and their walks end where they fit.
-/
import ApiReference.Proofs.Facts.Declared
import Mathlib.Logic.Relation
import Mathlib.Data.List.Perm.Subperm

namespace ApiReference

theorem Flags.meets_empty {family : FlagFamily} (b : Flags family) :
    (∅ : Flags family).meets b = false := by
  show ((0 &&& b.bits) != 0) = false
  rw [Nat.zero_and]
  rfl

namespace Facts

variable (f : Facts)

/-! ## 1. Hierarchies -/

/-- Is the type a class or an interface? -/
def IsClass (t : TypeRef) : Prop :=
  (f.type t).objectFlags.meets ObjectFlags.classesAndInterfaces = true

/-- A class or interface `b` among the base types of a class or interface `a`. -/
def BaseStep (a b : TypeRef) : Prop :=
  f.IsClass a ∧ f.IsClass b ∧ ∃ t, some t ∈ (f.type a).baseTypes ∧ b = .known t

/-- **No class or interface reaches itself** through base types that are all classes or interfaces. -/
def BasesAcyclic : Prop := ∀ t, ¬ Relation.TransGen f.BaseStep t t

/-- **No class or interface that a type leads to**, through base types that are all classes or interfaces,
    reaches itself. -/
def AcyclicAbove (t : TypeRef) : Prop :=
  ∀ x, Relation.ReflTransGen f.BaseStep t x → ¬ Relation.TransGen f.BaseStep x x

/-- **Walks of some depth fit**: they meet no cycle, and none of them needs to be deeper. -/
def WalksFit (depth : Nat) : Prop := f.BasesAcyclic ∧ f.baseDepth ≤ depth

variable {f}

/-- A base leads no further than the types over it. -/
theorem AcyclicAbove.base {a : TypeRef} (h : f.AcyclicAbove a) (ha : f.IsClass a) {b : TypeId}
    (hb : some b ∈ (f.type a).baseTypes) : f.AcyclicAbove (.known b) := by
  intro x hx hcycle
  by_cases hclass : f.IsClass (.known b)
  · exact h x (.head ⟨ha, hclass, b, hb, rfl⟩ hx) hcycle
  · rcases Relation.ReflTransGen.cases_head hx with rfl | ⟨c, hc, -⟩
    · obtain ⟨c, hc, -⟩ := Relation.TransGen.head'_iff.1 hcycle
      exact hclass hc.1
    · exact hclass hc.1

/-- A class or interface is a declared type. -/
theorem IsClass.declared {t : TypeRef} (ht : f.IsClass t) :
    ∃ id, t = .known id ∧ id.text ∈ f.typeIds := by
  cases t with
  | error =>
    rw [IsClass, show (f.type .error).objectFlags = ∅ from rfl, Flags.meets_empty] at ht
    exact absurd ht (by decide)
  | known id =>
    refine ⟨id, rfl, ?_⟩
    cases h : f.types.lookup id.text with
    | some facts => exact List.mem_map.2 ⟨_, lookup_mem h, rfl⟩
    | none =>
      have he : (f.type (.known id)).objectFlags = ∅ := by
        show ((f.types.lookup id.text).getD {}).objectFlags = ∅
        rw [h]
        rfl
      rw [IsClass, he, Flags.meets_empty] at ht
      exact absurd ht (by decide)

/-- Does the table list every base type after the types it is a base of? -/
def BasesListedLater (f : Facts) : Prop :=
  ∀ a ∈ f.typeIds, ∀ b ∈ (f.type (.known ⟨a⟩)).baseTypes, ∀ t ∈ b,
    f.typeIds.idxOf a < f.typeIds.idxOf t.text

instance (f : Facts) : Decidable f.BasesListedLater :=
  inferInstanceAs (Decidable (∀ a ∈ f.typeIds, ∀ b ∈ (f.type (.known ⟨a⟩)).baseTypes, ∀ t ∈ b,
    f.typeIds.idxOf a < f.typeIds.idxOf t.text))

/-- The place of a type in the table. -/
def place (f : Facts) : TypeRef → Nat
  | .known id => f.typeIds.idxOf id.text
  | .error => f.typeIds.length

theorem BaseStep.place_lt (h : f.BasesListedLater) {a b : TypeRef} (hab : f.BaseStep a b) :
    f.place a < f.place b := by
  obtain ⟨hclass, -, t, ht, rfl⟩ := hab
  obtain ⟨id, rfl, hid⟩ := hclass.declared
  exact h id.text hid _ ht t rfl

/-- A table in which bases come later has no cycle. -/
theorem basesAcyclic_of_listedLater (h : f.BasesListedLater) : f.BasesAcyclic := by
  have hplace : ∀ a b, Relation.TransGen f.BaseStep a b → f.place a < f.place b := by
    intro a b hab
    induction hab with
    | single hb => exact hb.place_lt h
    | tail _ hb ih => exact Nat.lt_trans ih (hb.place_lt h)
  exact fun t ht => Nat.lt_irrefl _ (hplace t t ht)

/-! ## 2. Induction along base types -/

/-- A path of different classes is no longer than the table of types. -/
theorem length_path_le {path : List TypeRef} (hnodup : path.Nodup) (hclass : ∀ p ∈ path, f.IsClass p) :
    path.length ≤ f.types.length := by
  have hsub : path ⊆ f.typeIds.map (fun id => TypeRef.known ⟨id⟩) := by
    intro p hp
    obtain ⟨id, rfl, hid⟩ := (hclass p hp).declared
    exact List.mem_map.2 ⟨id.text, hid, rfl⟩
  have hle := (List.subperm_of_subset hnodup hsub).length_le
  rwa [List.length_map, typeIds, List.length_map] at hle

/-- Without a cycle, the depth that is left is never used up: the types above form a path without
    repetition, all of which lead to the type at hand. -/
theorem base_induction_within {P : Nat → Option TypeRef → Prop}
    (hstep : ∀ n t, (∀ a, t = some a → f.IsClass a → ∀ b ∈ (f.type a).baseTypes,
      P n (b.map .known)) → P (n + 1) t) :
    ∀ (n : Nat) (t : Option TypeRef) (path : List TypeRef), (∀ a, t = some a → f.AcyclicAbove a) →
      path.Nodup → (∀ p ∈ path, f.IsClass p) →
      (∀ a, t = some a → f.IsClass a → ∀ p ∈ path, Relation.TransGen f.BaseStep p a) →
      f.types.length < n + path.length → P n t := by
  intro n
  induction n with
  | zero =>
    intro t path _ hnodup hclass _ hn
    have hle := length_path_le hnodup hclass
    omega
  | succ n ih =>
    intro t path hac hnodup hclass hreach hn
    refine hstep n t fun a ha hclassa b hb => ?_
    -- a class that is on the path already would be above itself
    have hnew : a ∉ path := fun hmem => hac a ha a .refl (hreach a ha hclassa a hmem)
    refine ih (b.map .known) (a :: path) ?_ (List.nodup_cons.2 ⟨hnew, hnodup⟩) ?_ ?_ ?_
    · intro c hc
      obtain ⟨id, rfl, rfl⟩ := Option.map_eq_some_iff.1 hc
      exact (hac a ha).base hclassa hb
    · intro p hp
      rcases List.mem_cons.1 hp with rfl | hp
      · exact hclassa
      · exact hclass p hp
    · intro c hc hclassc p hp
      obtain ⟨id, rfl, rfl⟩ := Option.map_eq_some_iff.1 hc
      have hbase : f.BaseStep a (.known id) := ⟨hclassa, hclassc, id, hb, rfl⟩
      rcases List.mem_cons.1 hp with rfl | hp
      · exact .single hbase
      · exact .tail (hreach a ha hclassa p hp) hbase
    · rw [List.length_cons]
      omega

/-- **Induction along the base types above a type**, at any depth that the walks can have. -/
theorem base_induction_above {P : Nat → Option TypeRef → Prop}
    (hstep : ∀ n t, (∀ a, t = some a → f.IsClass a → ∀ b ∈ (f.type a).baseTypes,
      P n (b.map .known)) → P (n + 1) t)
    {t : Option TypeRef} (hac : ∀ a, t = some a → f.AcyclicAbove a) {depth : Nat}
    (hdepth : f.baseDepth ≤ depth) : P depth t := by
  refine base_induction_within hstep depth t [] hac List.nodup_nil ?_ ?_ ?_
  · exact fun p hp => absurd hp List.not_mem_nil
  · exact fun a _ _ p hp => absurd hp List.not_mem_nil
  · rw [baseDepth] at hdepth
    rw [List.length_nil]
    omega

/-- **Induction along base types.**  What holds of a type, one level deeper, once it holds of its
    bases, holds of every type at any depth; where the walks do not fit, also the cut must be accounted
    for. -/
theorem base_induction {P : Nat → Option TypeRef → Prop} {depth : Nat}
    (hcut : ¬ f.WalksFit depth → ∀ t, P 0 t)
    (hstep : ∀ n t, (∀ a, t = some a → f.IsClass a → ∀ b ∈ (f.type a).baseTypes,
      P n (b.map .known)) → P (n + 1) t) (t : Option TypeRef) : P depth t := by
  by_cases hfit : f.WalksFit depth
  · exact base_induction_above hstep (fun _ _ x _ => hfit.1 x) hfit.2
  · have hall : ∀ n t, P n t := by
      intro n
      induction n with
      | zero => exact hcut hfit
      | succ n ih => exact fun t => hstep n t fun a _ _ b _ => ih (b.map .known)
    exact hall depth t

/-! ## 3. What the walks give -/

/-- The list of properties so far, and what is added to it, are declared. -/
theorem gives_addUnshadowed {hang : Prop} {names : List String} {done ps : List (Option SymbolId)}
    (hdone : ∀ p ∈ done, f.SymbolKey p) (hps : ∀ p ∈ ps, f.SymbolKey p) :
    Gives hang (fun r => ∀ p ∈ r.2, f.SymbolKey p) (f.addUnshadowed names done ps) := by
  induction ps generalizing names done with
  | nil => exact hdone
  | cons p r ih =>
    have hr : ∀ q ∈ r, f.SymbolKey q := fun q hq => hps q (List.mem_cons_of_mem p hq)
    unfold addUnshadowed
    refine (gives_present p).bind fun s _ => ?_
    show Gives _ _ (if _ then _ else _)
    split
    · exact ih hdone hr
    · refine ih (fun q hq => ?_) hr
      rcases List.mem_append.1 hq with hq | hq
      · exact hdone q hq
      · rw [List.mem_singleton.1 hq]
        exact hps p List.mem_cons_self

variable (hf : f.Closed)
include hf

theorem symbolKey_properties (t : TypeRef) : ∀ p ∈ (f.type t).properties, f.SymbolKey p :=
  fun p hp s hs => (hf.type t).properties p hp s hs

/-- **The properties of a type are declared**, and are found where the walk fits. -/
theorem gives_propertiesWithin (depth : Nat) (t : Option TypeRef) :
    Gives (¬ f.WalksFit depth) (fun ps => ∀ p ∈ ps, f.SymbolKey p) (f.propertiesWithin depth t) := by
  refine base_induction (P := fun n t => Gives (¬ f.WalksFit depth)
    (fun ps => ∀ p ∈ ps, f.SymbolKey p) (f.propertiesWithin n t)) (fun hfit t _ => hfit) ?_ t
  intro n t ih
  unfold propertiesWithin
  refine (gives_present t).bind fun a ha => ?_
  show Gives _ _ (if _ then _ else _)
  split
  · rename_i hclass
    have hown := symbolKey_properties hf a
    refine (Gives.mapM (Q := fun _ => True) fun p _ => ?_).bind fun names _ => ?_
    · exact (gives_present p).bind fun s _ => Gives.pure trivial
    · refine (Gives.foldlM (I := fun r => ∀ p ∈ r.2, f.SymbolKey p) ?_ hown).bind fun r hr => ?_
      · rintro ⟨names, done⟩ b hb hdone
        exact (ih a ha hclass b hb).bind fun ps hps => gives_addUnshadowed hdone hps
      · exact Gives.pure hr
  · exact Gives.pure (symbolKey_properties hf a)

/-- A member of a type's own table is declared. -/
theorem gives_ownMember {hang : Prop} (t : Option TypeRef) (name : String) :
    Gives hang f.SymbolKey (f.ownMember t name) := by
  unfold ownMember
  refine (gives_present t).bind fun a _ => ?_
  split
  · exact Gives.pure fun s hs => nomatch hs
  · rename_i s _
    refine Gives.pure fun m hm => ?_
    obtain ⟨o, ho, hjoin⟩ := Option.bind_eq_some_iff.1 hm
    exact (hf.symbol s).members _ (lookup_mem ho) m hjoin

omit hf in
theorem gives_firstFound {hang : Prop} {α β : Type} {P : Option β → Prop}
    {find : α → Except Fault (Option β)} {xs : List α} (hnone : P none)
    (hfind : ∀ a ∈ xs, Gives hang P (find a)) : Gives hang P (firstFound find xs) := by
  induction xs with
  | nil => exact hnone
  | cons a r ih =>
    unfold firstFound
    refine (hfind a List.mem_cons_self).bind fun o ho => ?_
    cases o with
    | some b => exact ho
    | none => exact ih fun x hx => hfind x (List.mem_cons_of_mem a hx)

/-- **A member by name is declared**, and is found or missed where the walk fits. -/
theorem gives_lookupWithin (depth : Nat) (t : Option TypeRef) (name : String) :
    Gives (¬ f.WalksFit depth) f.SymbolKey (f.lookupWithin name depth t) := by
  refine base_induction (P := fun n t => Gives (¬ f.WalksFit depth) f.SymbolKey
    (f.lookupWithin name n t)) (fun hfit t _ => hfit) ?_ t
  intro n t ih
  unfold lookupWithin
  refine (gives_ownMember hf t name).bind fun o ho => ?_
  cases o with
  | some s => exact Gives.pure ho
  | none =>
    refine (gives_present t).bind fun a ha => ?_
    show Gives _ _ (if _ then _ else _)
    split
    · rename_i hclass
      exact gives_firstFound ho fun b hb => ih a ha hclass b hb
    · exact Gives.pure ho

end Facts

end ApiReference
