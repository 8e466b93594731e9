/-
  Inherited properties, and members by name.

  The properties of a class are its own, then what each base adds to them: the first of its properties
  by each name that is not taken.  Looking up a name takes the first base that has it.  The two are
  written down separately and come to the same symbol.

  1. `Adds`, `Collects`   -- what one base adds to the properties, and what all bases do;
  2. `Only`               -- the entries by one name;
  3. `listed_as_found`    -- listing properties and looking up members agree.
-/
import ApiReference.Proofs.Facts.Walks

namespace ApiReference

namespace Facts

/-! ## 1. What a listing collects -/

variable (f : Facts)

/-- **What a base adds**: the first of its properties by each name that is not taken. -/
structure Adds (names : List String) (ps added : List (Option SymbolId)) (names' : List String) : Prop where
  subset : added ⊆ ps
  distinct : (added.map f.nameOf).Nodup
  untaken : ∀ q ∈ added, ∃ n, f.nameOf q = some n ∧ n ∉ names
  names : ∀ n, n ∈ names' ↔ n ∈ names ∨ some n ∈ added.map f.nameOf
  covers : ∀ p ∈ ps, ∀ n, f.nameOf p = some n → n ∈ names'

/-- **What was collected**: one's own properties, then others that have names of their own; and the
    names that are taken. -/
structure Collects (own : List (Option SymbolId)) (names : List String)
    (collected inherited : List (Option SymbolId)) : Prop where
  split : collected = own ++ inherited
  distinct : (inherited.map f.nameOf).Nodup
  unshadowed : ∀ q ∈ inherited, f.nameOf q ∉ own.map f.nameOf
  names : ∀ n, n ∈ names ↔ some n ∈ collected.map f.nameOf

variable {f}

/-- **One base**: what is listed of it already, and what of it is added. -/
theorem exists_adds {names names' : List String} {collected collected' ps : List (Option SymbolId)}
    (h : f.addUnshadowed names collected ps = .ok (names', collected')) :
    ∃ added, collected' = collected ++ added ∧ f.Adds names ps added names' := by
  induction ps generalizing names collected with
  | nil =>
    cases h
    refine ⟨[], (List.append_nil _).symm, List.nil_subset _, List.nodup_nil, ?_, ?_, ?_⟩
    · exact fun q hq => absurd hq List.not_mem_nil
    · exact fun n => (or_iff_left List.not_mem_nil).symm
    · exact fun p hp => absurd hp List.not_mem_nil
  | cons p ps ih =>
    cases p with
    | none => exact nomatch h
    | some s =>
      change (if _ then _ else _) = _ at h
      split at h
      -- an entry with a taken name is passed over
      · rename_i htaken
        obtain ⟨added, hsplit, hadds⟩ := ih h
        refine ⟨added, hsplit, fun q hq => List.mem_cons_of_mem _ (hadds.subset hq), hadds.distinct,
          hadds.untaken, hadds.names, List.forall_mem_cons.2 ⟨?_, hadds.covers⟩⟩
        intro n hn
        cases hn
        exact (hadds.names _).2 (.inl (List.contains_iff_mem.1 htaken))
      -- an entry with a free name takes it, so none that follows is added by that name
      · rename_i hfree
        obtain ⟨added, hsplit, hadds⟩ := ih h
        have hnew : ∀ q ∈ added, f.nameOf q ≠ f.nameOf (some s) := by
          intro q hq hsame
          obtain ⟨n, hn, hfresh⟩ := hadds.untaken q hq
          cases hn.symm.trans hsame
          exact hfresh List.mem_cons_self
        refine ⟨some s :: added, ?_, ?_, ?_, List.forall_mem_cons.2 ⟨?_, ?_⟩, ?_,
          List.forall_mem_cons.2 ⟨?_, hadds.covers⟩⟩
        · rw [hsplit, List.append_assoc]
          rfl
        · exact List.cons_subset_cons _ hadds.subset
        · refine List.nodup_cons.2 ⟨fun hmem => ?_, hadds.distinct⟩
          obtain ⟨q, hq, hsame⟩ := List.mem_map.1 hmem
          exact hnew q hq hsame
        · exact ⟨_, rfl, fun hmem => hfree (List.contains_iff_mem.2 hmem)⟩
        · intro q hq
          obtain ⟨n, hn, hfresh⟩ := hadds.untaken q hq
          exact ⟨n, hn, fun hmem => hfresh (List.mem_cons_of_mem _ hmem)⟩
        · intro n
          rw [hadds.names, List.mem_cons, List.map_cons, List.mem_cons, nameOf, Option.map_some,
            Option.some_inj]
          tauto
        · intro n hn
          cases hn
          exact (hadds.names _).2 (.inl List.mem_cons_self)

theorem mem_names {ps : List (Option SymbolId)} {names : List String} (h : f.namesOf ps = .ok names)
    (n : String) : n ∈ names ↔ some n ∈ ps.map f.nameOf := by
  unfold namesOf at h
  induction ps generalizing names with
  | nil =>
    cases h
    exact ⟨fun hn => absurd hn List.not_mem_nil, fun hn => absurd hn List.not_mem_nil⟩
  | cons p ps ih =>
    rw [List.mapM_cons, bind_eq_ok] at h
    obtain ⟨name, hname, h⟩ := h
    obtain ⟨rest, hrest, h⟩ := bind_eq_ok.1 h
    cases h
    cases p with
    | none => exact nomatch hname
    | some s =>
      cases hname
      rw [List.mem_cons, ih hrest, List.map_cons, List.mem_cons, nameOf, Option.map_some, Option.some_inj]

/-- At first one has one's own properties. -/
theorem Collects.start {own : List (Option SymbolId)} {names : List String}
    (h : f.namesOf own = .ok names) : f.Collects own names own [] where
  split := (List.append_nil own).symm
  distinct := List.nodup_nil
  unshadowed _ hq := absurd hq List.not_mem_nil
  names := mem_names h

section Collecting

variable {own collected inherited ps added : List (Option SymbolId)} {names names' : List String}

/-- What is added has names that nothing collected has. -/
theorem Collects.notMem (hc : f.Collects own names collected inherited)
    (ha : f.Adds names ps added names') : ∀ q ∈ added, f.nameOf q ∉ collected.map f.nameOf := by
  intro q hq hmem
  obtain ⟨n, hn, hfresh⟩ := ha.untaken q hq
  rw [hn] at hmem
  exact hfresh ((hc.names n).2 hmem)

theorem Collects.add (hc : f.Collects own names collected inherited)
    (ha : f.Adds names ps added names') :
    f.Collects own names' (collected ++ added) (inherited ++ added) where
  split := by rw [hc.split, List.append_assoc]
  distinct := by
    rw [List.map_append]
    refine List.nodup_append.2 ⟨hc.distinct, ha.distinct, ?_⟩
    intro m hm n hn hsame
    obtain ⟨q, hq, rfl⟩ := List.mem_map.1 hn
    refine hc.notMem ha q hq ?_
    rw [hc.split, List.map_append, ← hsame]
    exact List.mem_append_right _ hm
  unshadowed := by
    intro q hq
    rcases List.mem_append.1 hq with hq | hq
    · exact hc.unshadowed q hq
    · intro hmem
      refine hc.notMem ha q hq ?_
      rw [hc.split, List.map_append]
      exact List.mem_append_left _ hmem
  names n := by
    rw [ha.names, hc.names, List.map_append, List.mem_append]

/-- **All bases**: what was collected is kept, and what the bases add has names of its own. -/
theorem Collects.bases {list : Option TypeRef → Except Fault (List (Option SymbolId))}
    {bases : List (Option TypeId)} {collected' : List (Option SymbolId)}
    (hc : f.Collects own names collected inherited)
    (h : bases.foldlM (f.addBase list) (names, collected) = .ok (names', collected')) :
    ∃ inherited', f.Collects own names' collected' inherited' := by
  induction bases generalizing names collected inherited with
  | nil =>
    cases h
    exact ⟨inherited, hc⟩
  | cons b bases ih =>
    rw [List.foldlM_cons, bind_eq_ok] at h
    obtain ⟨⟨names₁, collected₁⟩, hb, h⟩ := h
    obtain ⟨ps, -, hadd⟩ := bind_eq_ok.1 hb
    obtain ⟨added, rfl, hadds⟩ := exists_adds hadd
    exact ih (hc.add hadds) h

end Collecting

/-! ## 2. The entries by a name -/

variable (f)

/-- **The entries by a name are one symbol**, or there are none. -/
def Only (name : String) (ps : List (Option SymbolId)) (o : Option SymbolId) : Prop :=
  ∀ s, some s ∈ ps ∧ (f.symbol s).escapedName = name ↔ o = some s

variable {f}

/-- The entries by a name are one symbol if they are one entry. -/
theorem only_of_filter {name : String} {ps : List (Option SymbolId)} {o : Option SymbolId}
    (h : ps.filter (fun p => f.nameOf p = some name) = o.toList.map some) : f.Only name ps o := by
  intro s
  have hmem : some s ∈ ps.filter (fun p => f.nameOf p = some name) ↔ o = some s := by
    simp [h]
  rw [List.mem_filter, decide_eq_true_iff, nameOf, Option.map_some, Option.some_inj] at hmem
  exact hmem

theorem Only.mem_iff {name : String} {ps : List (Option SymbolId)} {o : Option SymbolId}
    (h : f.Only name ps o) : some name ∈ ps.map f.nameOf ↔ ∃ s, o = some s := by
  rw [List.mem_map]
  constructor
  · rintro ⟨p, hp, hname⟩
    cases p with
    | none => exact nomatch hname
    | some s => exact ⟨s, (h s).1 ⟨hp, Option.some.inj hname⟩⟩
  · rintro ⟨s, hs⟩
    obtain ⟨hmem, hname⟩ := (h s).2 hs
    exact ⟨some s, hmem, congrArg some hname⟩

section Collecting

variable {own collected inherited ps added : List (Option SymbolId)} {names names' : List String}

/-- **The entries by a name after a base**: those from before, or else the base's. -/
theorem Only.add {name : String} {o o' : Option SymbolId} (hc : f.Collects own names collected inherited)
    (ha : f.Adds names ps added names') (ho : f.Only name collected o) (hps : f.Only name ps o') :
    f.Only name (collected ++ added) (o.or o') := by
  intro s
  rw [List.mem_append]
  cases o with
  | some s' =>
    -- with an entry from before the name was taken, so none is added by it
    rw [Option.some_or, ← ho s]
    refine and_congr_left fun hname => or_iff_left fun hs => ?_
    refine hc.notMem ha _ hs ?_
    rw [nameOf, Option.map_some, hname]
    exact ho.mem_iff.2 ⟨s', rfl⟩
  | none =>
    rw [Option.none_or]
    have hnone : ∀ s, ¬ (some s ∈ collected ∧ (f.symbol s).escapedName = name) := by
      intro s hs
      exact nomatch (ho s).1 hs
    constructor
    · rintro ⟨hs | hs, hname⟩
      · exact absurd ⟨hs, hname⟩ (hnone s)
      · exact (hps s).1 ⟨ha.subset hs, hname⟩
    · intro hs
      obtain ⟨hmem, hname⟩ := (hps s).2 hs
      -- the name was not taken before, and is now: an entry by it was added, which is the only one
      have htaken := (ha.names name).1 (ha.covers _ hmem name (congrArg some hname))
      have hadded : some name ∈ added.map f.nameOf := by
        refine htaken.resolve_left fun hold => ?_
        obtain ⟨s', hs'⟩ := ho.mem_iff.1 ((hc.names name).1 hold)
        exact nomatch hs'
      obtain ⟨q, hq, hqname⟩ := List.mem_map.1 hadded
      cases q with
      | none => exact nomatch hqname
      | some s' =>
        have hsame := (hps s').1 ⟨ha.subset hq, Option.some.inj hqname⟩
        cases hs.symm.trans hsame
        exact ⟨.inr hq, hname⟩

/-- **The entries by a name after all bases**: those from before, or else those of the first base that
    has the name. -/
theorem Only.bases {list : Option TypeRef → Except Fault (List (Option SymbolId))}
    {find : Option TypeId → Except Fault (Option SymbolId)} {name : String} {o : Option SymbolId}
    {bases : List (Option TypeId)} {collected' : List (Option SymbolId)}
    (hagree : ∀ b ∈ bases, ∀ ps, list (b.map .known) = .ok ps → ∃ o, find b = .ok o ∧ f.Only name ps o)
    (hc : f.Collects own names collected inherited) (ho : f.Only name collected o)
    (h : bases.foldlM (f.addBase list) (names, collected) = .ok (names', collected')) :
    ∃ o', firstFound find bases = .ok o' ∧ f.Only name collected' (o.or o') := by
  induction bases generalizing names collected inherited o with
  | nil =>
    cases h
    exact ⟨none, rfl, by rwa [Option.or_none]⟩
  | cons b bases ih =>
    rw [List.foldlM_cons, bind_eq_ok] at h
    obtain ⟨⟨names₁, collected₁⟩, hb, h⟩ := h
    obtain ⟨ps, hps, hadd⟩ := bind_eq_ok.1 hb
    obtain ⟨added, rfl, hadds⟩ := exists_adds hadd
    obtain ⟨o₁, hfound, ho₁⟩ := hagree b List.mem_cons_self ps hps
    obtain ⟨o', hrest, ho'⟩ := ih (fun b hb => hagree b (List.mem_cons_of_mem _ hb)) (hc.add hadds)
      (ho.add hc hadds ho₁) h
    cases o₁ with
    | none =>
      rw [Option.or_none] at ho'
      exact ⟨o', (firstFound_cons_none hfound).trans hrest, ho'⟩
    | some s =>
      rw [Option.or_assoc, Option.some_or] at ho'
      exact ⟨some s, firstFound_cons_some hfound bases, ho'⟩

end Collecting

/-! ## 3. Listing and looking up -/

variable {t : TypeRef} {ps : List (Option SymbolId)}

/-- **What a listing inherits** has names of its own, none of them that of an own property. -/
theorem exists_inherited {n : Nat} (h : f.propertiesWithin n (some t) = .ok ps) :
    ∃ inherited, ps = (f.type t).properties ++ inherited ∧ (inherited.map f.nameOf).Nodup ∧
      ∀ q ∈ inherited, f.nameOf q ∉ (f.type t).properties.map f.nameOf := by
  cases n with
  | zero => exact nomatch h
  | succ n =>
    by_cases ht : f.IsClass t
    · obtain ⟨names, names', hnames, hfold⟩ := (propertiesWithin_eq_ok ht).1 h
      obtain ⟨inherited, hc⟩ := (Collects.start hnames).bases hfold
      exact ⟨inherited, hc.split, hc.distinct, hc.unshadowed⟩
    · rw [propertiesWithin_other ht] at h
      cases h
      exact ⟨[], (List.append_nil _).symm, List.nodup_nil, fun q hq => absurd hq List.not_mem_nil⟩

/-- Two entries by one name are both own properties. -/
theorem own_of_nameOf_eq {n i j : Nat} (h : f.propertiesWithin n (some t) = .ok ps) (hij : i < j)
    (hj : j < ps.length) (hname : f.nameOf ps[i] = f.nameOf ps[j]) :
    j < (f.type t).properties.length := by
  obtain ⟨inherited, rfl, hdistinct, hunshadowed⟩ := exists_inherited h
  by_contra hout
  rw [Nat.not_lt] at hout
  have hj' : j - (f.type t).properties.length < inherited.length := by
    rw [List.length_append] at hj
    omega
  rw [List.getElem_append_right hout] at hname
  by_cases hi : i < (f.type t).properties.length
  · rw [List.getElem_append_left hi] at hname
    refine hunshadowed _ (List.getElem_mem hj') ?_
    rw [← hname]
    exact List.mem_map_of_mem (List.getElem_mem hi)
  · rw [List.getElem_append_right (Nat.not_lt.1 hi)] at hname
    have hdiffer := List.pairwise_iff_getElem.1 (List.pairwise_map.1 hdistinct)
    exact hdiffer _ _ _ hj' (by omega) hname

/-- **Listing and looking up agree**, at any depth at which the listing ends: by induction on the depth,
    the bases of a class agree one level up. -/
theorem only_lookupWithin {n : Nat} {name : String} (h : f.propertiesWithin n (some t) = .ok ps)
    (htables : ∀ x, f.Above t x → f.Only name (f.type x).properties (f.tableMember x name)) :
    ∃ o, f.lookupWithin name n (some t) = .ok o ∧ f.Only name ps o := by
  induction n generalizing t ps with
  | zero => exact nomatch h
  | succ n ih =>
    have hown := htables t .refl
    by_cases ht : f.IsClass t
    · obtain ⟨names, names', hnames, hfold⟩ := (propertiesWithin_eq_ok ht).1 h
      have hagree : ∀ b ∈ (f.type t).baseTypes, ∀ ps, f.propertiesWithin n (b.map .known) = .ok ps →
          ∃ o, f.lookupWithin name n (b.map .known) = .ok o ∧ f.Only name ps o := by
        intro b hb ps hps
        cases b with
        | none =>
          -- a missing base is a fault at any depth
          cases n with
          | zero => exact nomatch hps
          | succ n => exact nomatch hps
        | some b => exact ih hps fun x hx => htables x (hx.base ht hb)
      obtain ⟨o, hfound, ho⟩ := Only.bases hagree
        (Collects.start hnames) hown hfold
      cases htable : f.tableMember t name with
      | some s =>
        rw [htable] at ho
        exact ⟨some s, lookupWithin_found htable n, ho⟩
      | none =>
        rw [htable, Option.none_or] at ho
        exact ⟨o, (lookupWithin_class ht htable n).trans hfound, ho⟩
    · rw [propertiesWithin_other ht] at h
      cases h
      cases htable : f.tableMember t name with
      | some s => exact ⟨some s, lookupWithin_found htable n, htable ▸ hown⟩
      | none => exact ⟨none, lookupWithin_other ht htable n, htable ▸ hown⟩

/-- **Listing properties and looking up members agree.**  Let no cycle of classes and interfaces lie above
    a type.  Its properties are listed, if nothing is missing in what the walk meets; the list begins
    with its own properties as they are; and of two entries with the same escaped name, both are its
    own.  Take a name by which every type that the walk meets has at most one property, the one that is
    the member of that name in its own table, or neither.  Then the list has at most one symbol by that
    name, and looking the name up gives that symbol, or nothing if there is none. -/
theorem listed_as_found {t : TypeRef} (hac : f.AcyclicAbove t) :
    (f.Gapless t → ∃ ps, f.propertiesOf (some t) = .ok ps) ∧
    ∀ ps, f.propertiesOf (some t) = .ok ps →
      (f.type t).properties <+: ps ∧
      (∀ i j : Nat, i < j → ∀ p q, ps[i]? = some p → ps[j]? = some q → f.nameOf p = f.nameOf q →
        j < (f.type t).properties.length) ∧
      ∀ name, (∀ x, f.Above t x → ∃ o, f.ownMember (some x) name = .ok o ∧
          f.Only name (f.type x).properties o) →
        ∃ o, f.lookupMember (some t) name = .ok o ∧ f.Only name ps o := by
  refine ⟨fun hgaps => hgaps.exists_properties hac (Nat.le_refl _), ?_⟩
  intro ps hps
  refine ⟨?_, ?_, ?_⟩
  · obtain ⟨inherited, rfl, -⟩ := exists_inherited hps
    exact List.prefix_append _ _
  · intro i j hij p q hp hq hname
    obtain ⟨hi, rfl⟩ := List.getElem?_eq_some_iff.1 hp
    obtain ⟨hj, rfl⟩ := List.getElem?_eq_some_iff.1 hq
    exact own_of_nameOf_eq hps hij hj hname
  · intro name htables
    refine only_lookupWithin hps fun x hx => ?_
    obtain ⟨o, howned, honly⟩ := htables x hx
    rw [ownMember_some] at howned
    cases howned
    exact honly

/-- The class over two others has the name of the base that they have in common, which is met before
    that of the second of the two. -/
theorem listed_as_found_diamond : ∃ f, Facts.link diamondDocument = .ok f ∧
    f.AcyclicAbove (.known ⟨"TD"⟩) ∧
    f.propertiesOf (some (.known ⟨"TD"⟩)) = .ok [some ⟨"own"⟩, some ⟨"left"⟩, some ⟨"Tname"⟩] ∧
    f.lookupMember (some (.known ⟨"TD"⟩)) "name" = .ok (some ⟨"Tname"⟩) := by
  obtain ⟨f, hlink, -, hlisted, -, -, hname, htables⟩ := exists_diamond
  have hac := acyclicAbove_of_properties hlisted
  obtain ⟨-, -, hagree⟩ := (listed_as_found hac).2 _ hlisted
  obtain ⟨o, hfound, honly⟩ := hagree "name" fun x _ =>
    ⟨f.tableMember x "name", ownMember_some x _, only_of_filter (htables x)⟩
  have ho : o = some ⟨"Tname"⟩ := (honly _).1 ⟨by decide, hname⟩
  exact ⟨f, hlink, hac, hlisted, ho ▸ hfound⟩

end Facts

end ApiReference
