/-
  Class views.

  A class view sorts the children of a class into one constructor and six lists: own properties, events
  and methods, and those inherited from each ancestor.  Where a child goes depends on the child and the
  class alone, so each list is the part of the children that go there, in their order, and the ancestors
  stand in the order in which their first child was met.

  1. `OverridePath`      -- the way along overriding links, and where it ends;
  2. `Shelf`, `Place`    -- where a child goes;
  3. `Groups.add`        -- what one more child changes;
  4. `ClassView.add`     -- the same for a view;
  5. `groupMembers_sorts` -- every ordinary child is in one place, as often as it is a child;
  6. `groupMembers_shows` -- what is shown at all: private constructors are, and index signatures that
                            another class declared are not.
-/
import ApiReference.Proofs.Facts.Aliases
import ApiReference.Proofs.Model.Order
import ApiReference.Proofs.Registry

namespace ApiReference

/-! ## 1. Along overriding links -/

/-- **The way along overriding links** from a member.  It ends at a record that overrides nothing, or
    at one whose link leads back to a record that was met before. -/
structure OverridePath (m : Model) (c : MemberHandle) (path : List MemberHandle) : Prop where
  starts : path.head? = some c
  linked : path.IsChain fun x y => (m.member x).overrides = some y
  nodup : path.Nodup
  cut : ∀ last, path.getLast? = some last → ∀ y, (m.member last).overrides = some y → y ∈ path

/-- Two ways from one node along the same links, neither of which meets a node twice or goes on where it
    could not, are the same way. -/
theorem path_unique {α : Type} {next : α → Option α} :
    ∀ (p q seen : List α) (a : α),
      (a :: p).IsChain (fun x y => next x = some y) → (a :: q).IsChain (fun x y => next x = some y) →
      (seen ++ a :: p).Nodup → (seen ++ a :: q).Nodup →
      (∀ last, (a :: p).getLast? = some last → ∀ y, next last = some y → y ∈ seen ++ a :: p) →
      (∀ last, (a :: q).getLast? = some last → ∀ y, next last = some y → y ∈ seen ++ a :: q) →
      p = q := by
  intro p
  -- along the first way, with the nodes met so far; the other one takes the same step or has ended
  induction p with
  | nil =>
    intro q seen a _ hq _ hnodup hcut _
    cases q with
    | nil => rfl
    | cons b q =>
      -- the way that goes on meets a node that the other one had met
      have hb : b ∈ seen ++ [a] := hcut a rfl b (List.isChain_cons_cons.1 hq).1
      have hnodup' : ((seen ++ [a]) ++ b :: q).Nodup := by simpa using hnodup
      exact (hnodup'.disjoint hb List.mem_cons_self).elim
  | cons b p ih =>
    intro q seen a hp hq hnodupp hnodupq hcutp hcutq
    obtain ⟨hab, hp⟩ := List.isChain_cons_cons.1 hp
    cases q with
    | nil =>
      have hb : b ∈ seen ++ [a] := hcutq a rfl b hab
      have hnodup' : ((seen ++ [a]) ++ b :: p).Nodup := by simpa using hnodupp
      exact (hnodup'.disjoint hb List.mem_cons_self).elim
    | cons b' q =>
      obtain ⟨hab', hq⟩ := List.isChain_cons_cons.1 hq
      obtain rfl : b = b' := Option.some.inj (hab.symm.trans hab')
      rw [ih q (seen ++ [a]) b hp hq (by simpa using hnodupp) (by simpa using hnodupq)
        (fun last h => by simpa using hcutp last (by rw [List.getLast?_cons_cons]; exact h))
        fun last h => by simpa using hcutq last (by rw [List.getLast?_cons_cons]; exact h)]

/-- Only a record of the model overrides another. -/
theorem Model.mem_of_overrides {m : Model} {c d : MemberHandle} (h : (m.member c).overrides = some d) :
    c ∈ (List.range m.members.size).map MemberHandle.mk := by
  by_cases hc : c.index < m.members.slots.size
  · exact List.mem_map.2 ⟨c.index, List.mem_range.2 hc, rfl⟩
  · have hempty : m.member c = {} := Registry.recordAt_of_size_le (Nat.le_of_not_lt hc)
    rw [hempty] at h
    cases h

/-- The chain of overridden members is a way along overriding links. -/
theorem overridePath_overrideChain (m : Model) (c : MemberHandle) :
    OverridePath m c (overrideChain m c) := by
  have hfinite : ∀ c d, (m.member c).overrides = some d →
      c ∈ (List.range m.members.size).map MemberHandle.mk := fun _ _ h => Model.mem_of_overrides h
  obtain ⟨l, hl, hchain, hend⟩ := chain_spec hfinite (m.members.size + 1) [] c List.nodup_nil
    (fun _ h => absurd h List.not_mem_nil) List.not_mem_nil (by simp)
  have hpath : overrideChain m c = c :: l := hl
  refine ⟨by rw [hpath]; rfl, hpath ▸ hchain, (chain_nodup _ _ _ _).1, fun last hlast y hy => ?_⟩
  rw [hpath] at hlast ⊢
  rcases hend last hlast with hnone | ⟨b, hb, hmem | hmem⟩
  · exact nomatch hy.symm.trans hnone
  · exact absurd hmem List.not_mem_nil
  · rwa [Option.some.inj (hy.symm.trans hb)]

/-- **There is one way along overriding links** from each member. -/
theorem overridePath_iff {m : Model} {c : MemberHandle} {path : List MemberHandle} :
    OverridePath m c path ↔ path = overrideChain m c := by
  constructor
  · intro h
    have h' := overridePath_overrideChain m c
    obtain ⟨p, rfl⟩ := List.head?_eq_some_iff.1 h.starts
    obtain ⟨q, hq⟩ := List.head?_eq_some_iff.1 h'.starts
    rw [hq] at h' ⊢
    rw [path_unique p q [] c h.linked h'.linked h.nodup h'.nodup h.cut h'.cut]
  · rintro rfl
    exact overridePath_overrideChain m c

/-- The declaring ancestor is the parent of the last record on the way. -/
theorem OverridePath.declaringAncestor_eq {m : Model} {c last : MemberHandle} {path : List MemberHandle}
    (h : OverridePath m c path) (hlast : path.getLast? = some last) :
    declaringAncestor m c = (m.member last).parent := by
  rw [declaringAncestor, ← overridePath_iff.1 h, hlast, Option.getD_some]

/-! ## 2. Where a child goes -/

/-- The sorts of members that a class view lists. -/
inductive Shelf where
  | properties
  | events
  | methods
deriving DecidableEq, Repr

/-- All sorts. -/
def Shelf.all : List Shelf := [.properties, .events, .methods]

theorem Shelf.mem_all (s : Shelf) : s ∈ Shelf.all := by
  cases s <;> decide

/-- The sort of an ordinary member. -/
def MemberKind.shelf? : MemberKind → Option Shelf
  | .field | .accessor => some .properties
  | .event => some .events
  | .method | .callSignature => some .methods
  | _ => none

/-- The sort under which a class lists a member of its own: index signatures are properties. -/
def MemberKind.ownShelf? (k : MemberKind) : Option Shelf :=
  if k = .indexSignature then some .properties else k.shelf?

/-- **A place in a class view**: among the own members of a sort, or among those of an ancestor. -/
inductive Place where
  | own (s : Shelf)
  | inherited (s : Shelf) (ancestor : MemberHandle)
deriving DecidableEq, Repr

/-- The sort of a place. -/
def Place.shelf : Place → Shelf
  | .own s => s
  | .inherited s _ => s

namespace ClassView

/-- The own members of a sort. -/
def own (v : ClassView) : Shelf → List MemberHandle
  | .properties => v.properties
  | .events => v.events
  | .methods => v.methods

/-- The inherited members of a sort, by ancestor. -/
def inherited (v : ClassView) : Shelf → Groups
  | .properties => v.inheritedProperties
  | .events => v.inheritedEvents
  | .methods => v.inheritedMethods

/-- **The members in a place.** -/
def list (v : ClassView) : Place → List MemberHandle
  | .own s => v.own s
  | .inherited s a => ((v.inherited s).lookup a).getD []

/-- **Where a child goes**, if it goes to one of the six lists. -/
def place? (m : Model) (owner child : MemberHandle) : Option Place :=
  if (m.member child).kind = .constructor ∨ (m.member child).has .private_ then none
  else match inheritedFrom? m owner child with
    | some a => (m.member child).kind.shelf?.map (.inherited · a)
    | none => (m.member child).kind.ownShelf?.map .own

/-- The ancestor that a child is filed under, if it goes to the inherited members of a sort. -/
def ancestor? (m : Model) (owner : MemberHandle) (s : Shelf) (child : MemberHandle) :
    Option MemberHandle :=
  match place? m owner child with
  | some (.inherited t a) => if t = s then some a else none
  | _ => none

variable {m : Model} {owner a c : MemberHandle} {s : Shelf}

theorem ancestor?_eq_some : ancestor? m owner s c = some a ↔ place? m owner c = some (.inherited s a) := by
  unfold ancestor?
  split
  next t b h =>
    rw [h]
    simp only [Option.ite_none_right_eq_some, Option.some.injEq, Place.inherited.injEq]
  next h => exact ⟨nofun, fun hp => absurd hp (h s a)⟩

theorem inheritedFrom?_eq_some : inheritedFrom? m owner c = some a ↔
    declaringAncestor m c = some a ∧ a ≠ owner ∧ (m.member a).kind.isInheriting = true := by
  unfold inheritedFrom?
  cases declaringAncestor m c with
  | none => exact ⟨nofun, fun h => nomatch h.1⟩
  | some b =>
    simp only [Option.ite_none_right_eq_some, Option.some.injEq, Bool.and_eq_true, decide_eq_true_eq]
    constructor
    · rintro ⟨h, rfl⟩
      exact ⟨rfl, h⟩
    · rintro ⟨rfl, h⟩
      exact ⟨h, rfl⟩

/-- An ordinary child that is not private goes to one place, of its own sort. -/
theorem exists_place (owner : MemberHandle) (hs : (m.member c).kind.shelf? = some s) (hc : (m.member c).has .private_ = false) :
    ∃ p, place? m owner c = some p ∧ p.shelf = s ∧
      ∀ a, p = .inherited s a ↔ inheritedFrom? m owner c = some a := by
  have hkind : ¬((m.member c).kind = .constructor ∨ (m.member c).has .private_ = true) := by
    rintro (h | h)
    · rw [h] at hs
      exact nomatch hs
    · exact Bool.false_ne_true (hc.symm.trans h)
  have hown : (m.member c).kind.ownShelf? = some s := by
    rw [MemberKind.ownShelf?, if_neg (fun h => by rw [h] at hs; exact nomatch hs), hs]
  rw [place?, if_neg hkind]
  cases inheritedFrom? m owner c with
  | none => exact ⟨.own s, by simp only [hown, Option.map_some], rfl, fun a => ⟨nofun, nofun⟩⟩
  | some b =>
    refine ⟨.inherited s b, by simp only [hs, Option.map_some], rfl, fun a => ?_⟩
    simp only [Place.inherited.injEq, Option.some.injEq, true_and]

end ClassView

/-! ## 3. One more child of an ancestor -/

namespace Groups

/-- The ancestors in order. -/
def ancestors (g : Groups) : List MemberHandle := g.map Prod.fst

theorem ancestors_cons (x : MemberHandle × List MemberHandle) (g : Groups) :
    ancestors (x :: g) = x.1 :: ancestors g := rfl

variable (g : Groups) (a b c : MemberHandle)

/-- A new ancestor comes last. -/
theorem ancestors_add :
    (g.add a c).ancestors = if a ∈ g.ancestors then g.ancestors else g.ancestors ++ [a] := by
  induction g with
  | nil => rfl
  | cons x g ih =>
    rw [Groups.add]
    by_cases hx : x.1 = a
    · have hmem : a ∈ ancestors (x :: g) := List.mem_cons.2 (.inl hx.symm)
      rw [if_pos hx, if_pos hmem]
      rfl
    · have hmem : a ∈ ancestors (x :: g) ↔ a ∈ ancestors g :=
        List.mem_cons.trans (or_iff_right (Ne.symm hx))
      rw [if_neg hx, ancestors_cons, ih]
      by_cases ha : a ∈ ancestors g
      · rw [if_pos ha, if_pos (hmem.2 ha)]
        rfl
      · rw [if_neg ha, if_neg (mt hmem.1 ha)]
        rfl

/-- The child comes last in its group. -/
theorem lookup_add :
    ((g.add a c).lookup b).getD [] = (g.lookup b).getD [] ++ if a = b then [c] else [] := by
  induction g with
  | nil =>
    rw [Groups.add, List.lookup_cons]
    by_cases hab : a = b
    · simp [hab]
    · simp [hab, beq_false_of_ne (Ne.symm hab)]
  | cons x g ih =>
    obtain ⟨x, cs⟩ := x
    rw [Groups.add]
    by_cases hx : x = a
    · subst hx
      by_cases hab : x = b
      · simp [hab]
      · simp [hab, List.lookup_cons, beq_false_of_ne (Ne.symm hab)]
    · rw [if_neg hx]
      by_cases hb : b = x
      · subst hb
        simp [Ne.symm hx]
      · simp only [List.lookup_cons, beq_false_of_ne hb]
        exact ih

/-- No group is without children. -/
theorem nonempty_add (h : ∀ x ∈ g, x.2 ≠ []) : ∀ x ∈ g.add a c, x.2 ≠ [] := by
  induction g with
  | nil => simp [Groups.add]
  | cons y g ih =>
    obtain ⟨hy, hg⟩ := List.forall_mem_cons.1 h
    rw [Groups.add]
    split
    · exact List.forall_mem_cons.2 ⟨by simp, hg⟩
    · exact List.forall_mem_cons.2 ⟨hy, ih hg⟩

/-- With distinct ancestors, a group is what its ancestor is looked up as. -/
theorem mem_iff_lookup {g : Groups} (hg : g.ancestors.Nodup) {x : MemberHandle × List MemberHandle} :
    x ∈ g ↔ g.lookup x.1 = some x.2 := by
  induction g with
  | nil => simp
  | cons y g ih =>
    obtain ⟨hy, hg⟩ := List.nodup_cons.1 hg
    by_cases hx : x.1 = y.1
    · have hnot : x ∉ g := fun hmem => hy (hx ▸ List.mem_map_of_mem hmem)
      rw [List.mem_cons, List.lookup_cons, beq_iff_eq.2 hx, Option.some.injEq]
      exact ⟨fun h => (h.resolve_right hnot) ▸ rfl, fun h => .inl (Prod.ext hx h.symm)⟩
    · rw [List.mem_cons, List.lookup_cons, beq_false_of_ne hx, ← ih hg]
      exact ⟨fun h => h.resolve_left fun e => hx (e ▸ rfl), .inr⟩

end Groups

/-! ## 4. One more child of a class -/

namespace ClassView

variable {m : Model} {owner : MemberHandle} (v : ClassView) (k : MemberKind) (a c : MemberHandle)

theorem own_addInherited (s : Shelf) : (v.addInherited k a c).own s = v.own s := by
  cases k <;> cases s <;> rfl

theorem inherited_addInherited (s : Shelf) : (v.addInherited k a c).inherited s =
    if k.shelf? = some s then (v.inherited s).add a c else v.inherited s := by
  cases k <;> cases s <;> rfl

theorem own_addOwn (s : Shelf) :
    (v.addOwn k c).own s = if k.ownShelf? = some s then v.own s ++ [c] else v.own s := by
  cases k <;> cases s <;> rfl

theorem inherited_addOwn (s : Shelf) : (v.addOwn k c).inherited s = v.inherited s := by
  cases k <;> cases s <;> rfl

theorem own_add (s : Shelf) : (v.add m owner c).own s =
    if place? m owner c = some (.own s) then v.own s ++ [c] else v.own s := by
  unfold add place?
  by_cases hkind : (m.member c).kind = .constructor
  · simp only [hkind, if_true, true_or]
    cases s <;> rfl
  by_cases hc : (m.member c).has .private_ = true
  · simp [hkind, hc]
  simp only [if_neg hkind, if_neg hc, if_neg (not_or.2 ⟨hkind, hc⟩)]
  cases inheritedFrom? m owner c with
  | none =>
    simp only [own_addOwn, Option.map_eq_some_iff, Place.own.injEq, exists_eq_right]
  | some a =>
    simp only [own_addInherited, Option.map_eq_some_iff, reduceCtorEq, and_false, exists_false, if_false]

theorem inherited_add (s : Shelf) : (v.add m owner c).inherited s =
    match ancestor? m owner s c with
    | some a => (v.inherited s).add a c
    | none => v.inherited s := by
  unfold add ancestor? place?
  by_cases hkind : (m.member c).kind = .constructor
  · simp only [hkind, if_true, true_or]
    cases s <;> rfl
  by_cases hc : (m.member c).has .private_ = true
  · simp [hkind, hc]
  simp only [if_neg hkind, if_neg hc, if_neg (not_or.2 ⟨hkind, hc⟩)]
  cases inheritedFrom? m owner c with
  | none =>
    rw [inherited_addOwn]
    cases (m.member c).kind.ownShelf? <;> rfl
  | some a =>
    rw [inherited_addInherited]
    cases (m.member c).kind.shelf? with
    | none => rfl
    | some t =>
      simp only [Option.some.injEq, Option.map_some]
      by_cases hts : t = s
      · simp only [if_pos hts]
      · simp only [if_neg hts]

/-- **The child comes last in its place.** -/
theorem list_add (p : Place) :
    (v.add m owner c).list p = v.list p ++ if place? m owner c = some p then [c] else [] := by
  cases p with
  | own s =>
    rw [list, list, own_add]
    split
    · rfl
    · rw [List.append_nil]
  | inherited s b =>
    rw [list, list, inherited_add]
    simp only [← ancestor?_eq_some]
    cases ancestor? m owner s c with
    | none => simp
    | some a => simp only [Groups.lookup_add, Option.some.injEq]

/-- A new ancestor comes last. -/
theorem ancestors_add (s : Shelf) : ((v.add m owner c).inherited s).ancestors =
    match ancestor? m owner s c with
    | some a => if a ∈ (v.inherited s).ancestors then (v.inherited s).ancestors
      else (v.inherited s).ancestors ++ [a]
    | none => (v.inherited s).ancestors := by
  rw [inherited_add]
  cases ancestor? m owner s c with
  | none => rfl
  | some a => exact Groups.ancestors_add ..

/-- The last constructor stays. -/
theorem constructor_add : (v.add m owner c).constructor? =
    if (m.member c).kind = .constructor then some c else v.constructor? := by
  unfold add addOwn addInherited
  by_cases hkind : (m.member c).kind = .constructor
  · simp only [hkind, if_true]
  · simp only [if_neg hkind]
    repeat' split
    all_goals rfl

/-! ## 5. All children of a class -/

/-- The view of some children of a class. -/
def ofChildren (m : Model) (owner : MemberHandle) (cs : List MemberHandle) : ClassView :=
  cs.foldl (add m owner) {}

variable (m owner) (cs : List MemberHandle)

theorem ofChildren_concat : ofChildren m owner (cs ++ [c]) = (ofChildren m owner cs).add m owner c := by
  rw [ofChildren, List.foldl_concat, ofChildren]

/-- **A place holds the children that go there**, in their order. -/
theorem list_ofChildren (p : Place) :
    (ofChildren m owner cs).list p = cs.filter fun c => place? m owner c = some p := by
  -- over the children from the end, since the one that was met last comes last in its place
  induction cs using List.reverseRecOn with
  | nil => cases p with
    | own s => cases s <;> rfl
    | inherited s a => cases s <;> rfl
  | append_singleton cs c ih =>
    rw [ofChildren_concat, list_add, ih, List.filter_append, List.filter_singleton]
    by_cases h : place? m owner c = some p
    · simp [h]
    · simp [h]

/-- **The ancestors stand in the order in which they were met.** -/
theorem ancestors_ofChildren (s : Shelf) : ((ofChildren m owner cs).inherited s).ancestors =
    (cs.filterMap (ancestor? m owner s)).eraseDups := by
  induction cs using List.reverseRecOn with
  | nil => cases s <;> rfl
  | append_singleton cs c ih =>
    rw [ofChildren_concat, ancestors_add, ih, eraseDups_filterMap_concat]
    cases ancestor? m owner s c <;> rfl

theorem nodup_ancestors_ofChildren (s : Shelf) :
    ((ofChildren m owner cs).inherited s).ancestors.Nodup := by
  rw [ancestors_ofChildren]
  exact nodup_eraseDups _

theorem nonempty_ofChildren (s : Shelf) : ∀ g ∈ (ofChildren m owner cs).inherited s, g.2 ≠ [] := by
  induction cs using List.reverseRecOn with
  | nil => cases s <;> exact fun _ h => nomatch h
  | append_singleton cs c ih =>
    rw [ofChildren_concat, inherited_add]
    cases ancestor? m owner s c with
    | none => exact ih
    | some a => exact Groups.nonempty_add _ _ _ ih

/-- The constructor is the last one among the children. -/
theorem constructor_ofChildren : (ofChildren m owner cs).constructor? =
    (cs.filter fun c => (m.member c).kind = .constructor).getLast? := by
  induction cs using List.reverseRecOn with
  | nil => rfl
  | append_singleton cs c ih =>
    rw [ofChildren_concat, constructor_add, ih, List.filter_append, List.filter_singleton]
    by_cases hkind : (m.member c).kind = .constructor
    · simp [hkind]
    · simp [hkind]

/-- What a place holds are the children that go there. -/
theorem mem_list_ofChildren {m : Model} {owner c : MemberHandle} {cs : List MemberHandle} {p : Place} :
    c ∈ (ofChildren m owner cs).list p ↔ c ∈ cs ∧ place? m owner c = some p := by
  rw [list_ofChildren, List.mem_filter, decide_eq_true_eq]

/-- **The children of a class, sorted** into the six lists of a view. -/
structure Sorts (m : Model) (owner : MemberHandle) (cs : List MemberHandle) (v : ClassView) : Prop where
  /-- an ordinary child that is not private is in one place, of its sort, as often as it is a child; this
      is among the inherited members exactly when another class or interface declared the child -/
  placed : ∀ c ∈ cs, (m.member c).has .private_ = false → ∀ s, (m.member c).kind.shelf? = some s →
    ∃ p : Place, p.shelf = s ∧ (v.list p).count c = cs.count c ∧ (∀ q, q ≠ p → c ∉ v.list q) ∧
      ∀ a, p = .inherited s a ↔
        declaringAncestor m c = some a ∧ a ≠ owner ∧ (m.member a).kind.isInheriting = true
  /-- a place keeps the order of the children it holds -/
  kept : ∀ p, v.list p = cs.filter (· ∈ v.list p)
  nonempty : ∀ s, ∀ g ∈ v.inherited s, g.2 ≠ []
  distinct : ∀ s, (v.inherited s).ancestors.Nodup
  firstSeen : ∀ s, (v.inherited s).ancestors = (cs.filterMap (ancestor? m owner s)).eraseDups

theorem sorts_ofChildren : (ofChildren m owner cs).Sorts m owner cs where
  placed c hc hprivate s hs := by
    obtain ⟨p, hp, hshelf, hinherited⟩ := exists_place owner hs hprivate
    refine ⟨p, hshelf, ?_, fun q hq hmem => ?_, fun a => (hinherited a).trans inheritedFrom?_eq_some⟩
    · rw [list_ofChildren]
      exact List.count_filter (decide_eq_true hp)
    · exact hq (Option.some.inj ((mem_list_ofChildren.1 hmem).2.symm.trans hp))
  kept p := by
    rw [list_ofChildren]
    refine List.filter_congr fun c hc => ?_
    simp only [List.mem_filter, hc, true_and, decide_eq_true_eq]
  nonempty := nonempty_ofChildren m owner cs
  distinct := nodup_ancestors_ofChildren m owner cs
  firstSeen := ancestors_ofChildren m owner cs

end ClassView

/-- The view of a class is that of its children. -/
theorem groupMembers_eq_ok {m : Model} {owner : MemberHandle} {cs : List MemberHandle}
    (hcs : (m.member owner).members.getD [] = cs.map some) :
    groupMembers m owner = .ok (ClassView.ofChildren m owner cs) := by
  rw [groupMembers, hcs, ClassView.ofChildren, List.foldlM_map]
  exact List.foldlM_pure ..

/-- **A class view sorts the children of a class.**  Every ordinary child that is not private is in one
    place of its sort, as often as it is a child: under its declaring ancestor when that is another class
    or interface, else among the own members.  Order is kept everywhere.  The declaring ancestor is the
    parent of the last record on the one way along overriding links from the child. -/
theorem groupMembers_sorts {m : Model} {owner : MemberHandle} {cs : List MemberHandle}
    (hcs : (m.member owner).members.getD [] = cs.map some) :
    ∃ v, groupMembers m owner = .ok v ∧ v.Sorts m owner cs ∧
      ∀ c, ∃ path last, (∀ l, OverridePath m c l ↔ l = path) ∧ path.getLast? = some last ∧
        declaringAncestor m c = (m.member last).parent := by
  refine ⟨_, groupMembers_eq_ok hcs, ClassView.sorts_ofChildren m owner cs, fun c => ?_⟩
  have hpath := overridePath_overrideChain m c
  obtain ⟨l, hl⟩ := List.head?_eq_some_iff.1 hpath.starts
  have hlast : (overrideChain m c).getLast? = some ((c :: l).getLast (List.cons_ne_nil c l)) := by
    rw [hl, List.getLast?_eq_some_getLast]
  exact ⟨_, _, fun _ => overridePath_iff, hlast, hpath.declaringAncestor_eq hlast⟩

/-- A class with a private constructor, an index signature and a method that a base class declares, too,
    and a private field.  The two methods override each other. -/
def crossedModel : Model where
  members := ⟨(([
    { kind := .class_, members := some ([⟨1⟩, ⟨2⟩, ⟨3⟩, ⟨4⟩].map some) },
    { kind := .constructor, parent := some ⟨0⟩, modifiers := (∅ : Modifiers).insert .private_ },
    { kind := .indexSignature, parent := some ⟨0⟩, overrides := some ⟨6⟩ },
    { kind := .method, parent := some ⟨0⟩, overrides := some ⟨7⟩ },
    { kind := .field, parent := some ⟨0⟩, modifiers := (∅ : Modifiers).insert .private_ },
    { kind := .class_ },
    { kind := .indexSignature, parent := some ⟨5⟩ },
    { kind := .method, parent := some ⟨5⟩, overrides := some ⟨3⟩ }] : List Member).map
      fun c => (none, c)).toArray⟩

/-- The children of a class whose method and the base class's override each other. -/
theorem groupMembers_sorts_crossed : ∃ v, groupMembers crossedModel ⟨0⟩ = .ok v ∧
    v.Sorts crossedModel ⟨0⟩ [⟨1⟩, ⟨2⟩, ⟨3⟩, ⟨4⟩] ∧
    ∀ c, ∃ path last, (∀ l, OverridePath crossedModel c l ↔ l = path) ∧ path.getLast? = some last ∧
      declaringAncestor crossedModel c = (crossedModel.member last).parent :=
  groupMembers_sorts rfl

/-! ## 6. What is shown -/

namespace ClassView

/-- **All that a view shows**: the constructor and the members of the six lists. -/
def shown (v : ClassView) : List MemberHandle :=
  v.constructor?.toList ++ Shelf.all.flatMap v.own ++ (Shelf.all.flatMap v.inherited).flatMap Prod.snd

theorem mem_shown {v : ClassView} {c : MemberHandle} (hv : ∀ s, (v.inherited s).ancestors.Nodup) :
    c ∈ v.shown ↔ v.constructor? = some c ∨ ∃ p, c ∈ v.list p := by
  -- the members of a group are those that its ancestor is looked up as, keys being distinct
  have hgroup : ∀ s, (∃ g ∈ v.inherited s, c ∈ g.2) ↔ ∃ a, c ∈ v.list (.inherited s a) := by
    intro s
    constructor
    · rintro ⟨g, hg, hc⟩
      refine ⟨g.1, ?_⟩
      rwa [list, (Groups.mem_iff_lookup (hv s)).1 hg]
    · rintro ⟨a, hc⟩
      cases h : (v.inherited s).lookup a with
      | none =>
        rw [list, h] at hc
        exact nomatch hc
      | some cs =>
        rw [list, h] at hc
        exact ⟨(a, cs), (Groups.mem_iff_lookup (hv s)).2 h, hc⟩
  simp only [shown, List.mem_append, List.mem_flatMap, Option.mem_toList, Shelf.mem_all, true_and,
    or_assoc]
  refine or_congr_right ⟨?_, ?_⟩
  · rintro (⟨s, hc⟩ | ⟨g, ⟨s, hg⟩, hc⟩)
    · exact ⟨.own s, hc⟩
    · obtain ⟨a, ha⟩ := (hgroup s).1 ⟨g, hg, hc⟩
      exact ⟨_, ha⟩
  · rintro ⟨p, hc⟩
    cases p with
    | own s => exact .inl ⟨s, hc⟩
    | inherited s a =>
      obtain ⟨g, hg, hc⟩ := (hgroup s).2 ⟨a, hc⟩
      exact .inr ⟨g, ⟨s, hg⟩, hc⟩

/-- A child goes to one of the six lists when it is not private and is an ordinary member, or an index
    signature that no other class or interface declared. -/
theorem isSome_place? {m : Model} {owner c : MemberHandle} : (place? m owner c).isSome = true ↔
    (m.member c).has .private_ = false ∧ ((m.member c).kind.shelf?.isSome = true ∨
      (m.member c).kind = .indexSignature ∧ inheritedFrom? m owner c = none) := by
  unfold place? MemberKind.ownShelf?
  cases (m.member c).has .private_
  case true => simp
  case false =>
    cases inheritedFrom? m owner c with
    | none => cases (m.member c).kind <;> simp [MemberKind.shelf?]
    | some a => cases (m.member c).kind <;> simp [MemberKind.shelf?]

/-- With at most one constructor, this one is shown. -/
theorem constructor_ofChildren_eq_some {m : Model} {owner c : MemberHandle} {cs : List MemberHandle}
    (hone : ∀ a ∈ cs, ∀ b ∈ cs, (m.member a).kind = .constructor → (m.member b).kind = .constructor →
      a = b) :
    (ofChildren m owner cs).constructor? = some c ↔ c ∈ cs ∧ (m.member c).kind = .constructor := by
  rw [constructor_ofChildren]
  have hmem : ∀ a, a ∈ cs.filter (fun a => (m.member a).kind = .constructor) ↔
      a ∈ cs ∧ (m.member a).kind = .constructor :=
    fun a => by rw [List.mem_filter, decide_eq_true_eq]
  constructor
  · exact fun h => (hmem c).1 (List.mem_of_getLast? h)
  · intro hc
    cases h : (cs.filter fun a => (m.member a).kind = .constructor).getLast? with
    | none =>
      rw [List.getLast?_eq_none_iff] at h
      exact absurd ((hmem c).2 hc) (h ▸ List.not_mem_nil)
    | some d =>
      have hd := (hmem d).1 (List.mem_of_getLast? h)
      rw [hone d hd.1 c hc.1 hd.2 hc.2]

end ClassView

/-- **What a class view shows** of the children of a class with at most one constructor: the
    constructor, private or not; the ordinary members that are not private, whoever declared them; and
    the index signatures that are not private and that no other class or interface declared. -/
theorem groupMembers_shows {m : Model} {owner : MemberHandle} {cs : List MemberHandle}
    (hcs : (m.member owner).members.getD [] = cs.map some)
    (hone : ∀ a ∈ cs, ∀ b ∈ cs, (m.member a).kind = .constructor → (m.member b).kind = .constructor →
      a = b) :
    ∃ v, groupMembers m owner = .ok v ∧ ∀ c, c ∈ v.shown ↔ c ∈ cs ∧
      ((m.member c).kind = .constructor ∨
        (m.member c).has .private_ = false ∧ ((m.member c).kind.shelf?.isSome = true ∨
          (m.member c).kind = .indexSignature ∧ ∀ a, declaringAncestor m c = some a →
            a ≠ owner → (m.member a).kind.isInheriting = false)) := by
  refine ⟨_, groupMembers_eq_ok hcs, fun c => ?_⟩
  have hown : ClassView.inheritedFrom? m owner c = none ↔ ∀ a, declaringAncestor m c = some a →
      a ≠ owner → (m.member a).kind.isInheriting = false := by
    simp only [Option.eq_none_iff_forall_ne_some, ne_eq, ClassView.inheritedFrom?_eq_some, not_and,
      Bool.not_eq_true]
  rw [ClassView.mem_shown (ClassView.nodup_ancestors_ofChildren m owner cs),
    ClassView.constructor_ofChildren_eq_some hone, ← hown, and_or_left, ← ClassView.isSome_place?,
    Option.isSome_iff_exists]
  simp only [ClassView.mem_list_ofChildren, exists_and_left]

/-- A class in which all of this is met. -/
theorem groupMembers_shows_crossed : ∃ v, groupMembers crossedModel ⟨0⟩ = .ok v ∧
    ∀ c, c ∈ v.shown ↔ c ∈ [⟨1⟩, ⟨2⟩, ⟨3⟩, ⟨4⟩] ∧
      ((crossedModel.member c).kind = .constructor ∨
        (crossedModel.member c).has .private_ = false ∧
          ((crossedModel.member c).kind.shelf?.isSome = true ∨
            (crossedModel.member c).kind = .indexSignature ∧
              ∀ a, declaringAncestor crossedModel c = some a → a ≠ ⟨0⟩ →
                (crossedModel.member a).kind.isInheriting = false)) :=
  groupMembers_shows rfl (by decide +kernel)

/-- **A private constructor is shown, and an inherited index signature is not**: of four different
    children, one of them a constructor, the view shows the private one and leaves out one that is not. -/
theorem privateConstructor_shown : ∃ v, groupMembers crossedModel ⟨0⟩ = .ok v ∧
    (crossedModel.member ⟨0⟩).members = some ([⟨1⟩, ⟨2⟩, ⟨3⟩, ⟨4⟩].map some) ∧
    (∀ c ∈ [⟨2⟩, ⟨3⟩, ⟨4⟩], (crossedModel.member c).kind ≠ .constructor) ∧
    (⟨1⟩ ∈ v.shown ∧ (crossedModel.member ⟨1⟩).kind = .constructor ∧
      (crossedModel.member ⟨1⟩).has .private_ = true) ∧
    (⟨2⟩ ∉ v.shown ∧ (crossedModel.member ⟨2⟩).kind = .indexSignature ∧
      (crossedModel.member ⟨2⟩).has .private_ = false) :=
  have hcs : (crossedModel.member ⟨0⟩).members.getD [] = [⟨1⟩, ⟨2⟩, ⟨3⟩, ⟨4⟩].map some := rfl
  ⟨_, groupMembers_eq_ok hcs, rfl, by decide +kernel, by decide +kernel, by decide +kernel⟩

end ApiReference
