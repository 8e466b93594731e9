/-
  What merging overrides.

  Entries with distinct keys are determined by the order of their keys and by what each key is looked
  up as.  Merging has a closed form on both sides: the keys of the base come first, then the new ones,
  and every key of the update holds its value merged over that of the base.  So a path of keys leads to
  what the update names there, and to what the base has where the update says nothing.

  1. `lookup`          -- entries, by their keys and what is looked up;
  2. `KeysDistinct`    -- no map has a key twice;
  3. `mergeEntries`    -- its keys, and what is looked up in it;
  4. `mergeValue_self`, `mergeValue_idem` -- merging again changes nothing;
  5. `valueAt`         -- paths of keys;
  6. `merge_overrides` -- what a merged map holds at each path;
  7. `merge_overrides_defaults` -- an update of the defaults.
-/
import ApiReference.Settings
import Mathlib.Data.List.Nodup

namespace ApiReference.Value

variable {k : String} {v : Value} {es es' : List (String × Value)}

/-! ## 1. Entries -/

theorem lookup_eq_none : lookup k es = none ↔ k ∉ es.map Prod.fst := by
  induction es with
  | nil => simp [lookup]
  | cons e r ih =>
    obtain ⟨k', w⟩ := e
    by_cases hk : k' = k
    · simp [lookup, hk]
    · simp [lookup, hk, Ne.symm hk, ih]

theorem mem_of_lookup (h : lookup k es = some v) : (k, v) ∈ es := by
  induction es with
  | nil => cases h
  | cons e r ih =>
    obtain ⟨k', w⟩ := e
    unfold lookup at h
    split at h
    · rename_i hk
      cases h
      rw [hk]
      exact List.mem_cons_self
    · exact List.mem_cons_of_mem _ (ih h)

/-- **Entries with distinct keys** are the same if their keys have one order and hold the same. -/
theorem eq_of_lookup (hkeys : es.map Prod.fst = es'.map Prod.fst) (hdistinct : (es.map Prod.fst).Nodup)
    (h : ∀ k, lookup k es = lookup k es') : es = es' := by
  induction es generalizing es' with
  | nil => exact (List.map_eq_nil_iff.1 hkeys.symm).symm
  | cons e r ih =>
    cases es' with
    | nil => cases hkeys
    | cons e' r' =>
      obtain ⟨k, v⟩ := e
      obtain ⟨k', v'⟩ := e'
      obtain ⟨hhead, hrest⟩ := List.cons.inj hkeys
      obtain ⟨hnew, hdistinct'⟩ := List.nodup_cons.1 hdistinct
      have hhead' : k = k' := hhead
      subst hhead'
      have hvalue := h k
      simp only [lookup, if_true, Option.some.injEq] at hvalue
      have htail : r = r' := by
        refine ih hrest hdistinct' fun j => ?_
        have hj := h j
        by_cases hjk : k = j
        · -- the first key is in neither rest
          subst hjk
          have hnew' : k ∉ r'.map Prod.fst := hrest ▸ hnew
          rw [lookup_eq_none.2 hnew, lookup_eq_none.2 hnew']
        · simpa only [lookup, hjk, if_false] using hj
      rw [hvalue, htail]

/-! ## 2. Distinct keys -/

/-- A map. -/
def isMap : Value → Bool
  | .map _ => true
  | _ => false

/-- **No map has a key twice**, the value itself and every map that is reached from it by keys. -/
inductive KeysDistinct : Value → Prop
  | map {es : List (String × Value)} : (es.map Prod.fst).Nodup → (∀ e ∈ es, KeysDistinct e.2) →
      KeysDistinct (.map es)
  | other {v : Value} : v.isMap = false → KeysDistinct v

theorem KeysDistinct.nodup (h : (Value.map es).KeysDistinct) : (es.map Prod.fst).Nodup := by
  cases h with
  | map hnodup _ => exact hnodup
  | other hmap => cases hmap

theorem KeysDistinct.lookup (h : (Value.map es).KeysDistinct) (hv : lookup k es = some v) :
    v.KeysDistinct := by
  cases h with
  | map _ hall => exact hall _ (mem_of_lookup hv)
  | other hmap => cases hmap

/-! ## 3. Merged entries -/

/-- Only two maps are merged; else the update stands. -/
theorem mergeValue_of_not_isMap (hv : v.isMap = false) (b : Option Value) : mergeValue v b = v := by
  cases v with
  | map es => cases hv
  | _ => rfl

theorem mergeValue_of_base {b : Option Value} (hb : ∀ bs, b ≠ some (.map bs)) : mergeValue v b = v := by
  unfold mergeValue
  split
  · exact absurd rfl (hb _)
  · rfl

theorem mergeValue_none (v : Value) : mergeValue v none = v := by
  refine mergeValue_of_base fun bs he => ?_
  cases he

variable {us bs : List (String × Value)}

/-- The keys of a base, then the new keys of an update, each in their order. -/
def mergedKeys (bs us : List (String × Value)) : List String :=
  bs.map Prod.fst ++ (us.map Prod.fst).filter (fun k => k ∉ bs.map Prod.fst)

/-- An update without new keys leaves those of the base. -/
theorem mergedKeys_of_subset (h : ∀ k ∈ us.map Prod.fst, k ∈ bs.map Prod.fst) :
    mergedKeys bs us = bs.map Prod.fst := by
  have hnone : (us.map Prod.fst).filter (fun k => k ∉ bs.map Prod.fst) = [] :=
    List.filter_eq_nil_iff.2 fun k hk => by simpa using h k hk
  rw [mergedKeys, hnone, List.append_nil]

/-- **The keys of the base keep their order**, and new keys follow in the order of the update. -/
theorem keys_mergeEntries (hus : (us.map Prod.fst).Nodup) :
    (mergeEntries us bs).map Prod.fst = mergedKeys bs us := by
  unfold mergedKeys
  induction us generalizing bs with
  | nil => simp [mergeEntries]
  | cons u r ih =>
    obtain ⟨k, w⟩ := u
    obtain ⟨hk, hr⟩ := List.nodup_cons.1 hus
    have hk' : k ∉ r.map Prod.fst := hk
    rw [mergeEntries, ih hr, keys_insert, List.map_cons]
    by_cases hmem : k ∈ bs.map Prod.fst
    · rw [if_pos hmem, List.filter_cons_of_neg (by simpa using hmem)]
    · rw [if_neg hmem, List.filter_cons_of_pos (by simpa using hmem), List.append_assoc,
        List.singleton_append]
      have hsame : ∀ j ∈ r.map Prod.fst,
          decide (j ∉ bs.map Prod.fst ++ [k]) = decide (j ∉ bs.map Prod.fst) := by
        intro j hj
        have hjk : j ≠ k := fun he => hk' (he ▸ hj)
        simp [hjk]
      rw [List.filter_congr hsame]

/-- **A key of the update** holds its value merged over that of the base, any other what the base
    has. -/
theorem lookup_mergeEntries (hus : (us.map Prod.fst).Nodup) (k : String) :
    lookup k (mergeEntries us bs) =
      match lookup k us with
      | some u => some (mergeValue u (lookup k bs))
      | none => lookup k bs := by
  induction us generalizing bs with
  | nil => rfl
  | cons u r ih =>
    obtain ⟨k', w⟩ := u
    obtain ⟨hk, hr⟩ := List.nodup_cons.1 hus
    rw [mergeEntries, ih hr, lookup_insert]
    by_cases hkk : k' = k
    · subst hkk
      simp [lookup, lookup_eq_none.2 hk]
    · simp [lookup, hkk]

/-- A merged map has no key twice. -/
theorem nodup_mergeEntries (hus : (us.map Prod.fst).Nodup) (hbs : (bs.map Prod.fst).Nodup) :
    ((mergeEntries us bs).map Prod.fst).Nodup := by
  rw [keys_mergeEntries hus, mergedKeys]
  refine hbs.append (hus.filter _) fun k hk hk' => ?_
  have hnew := (List.mem_filter.1 hk').2
  exact of_decide_eq_true hnew hk

/-- Merged over no entries an update is as it was. -/
theorem mergeEntries_nil (hus : (us.map Prod.fst).Nodup) : mergeEntries us [] = us := by
  have hkeys : (mergeEntries us []).map Prod.fst = us.map Prod.fst := by
    rw [keys_mergeEntries hus, mergedKeys]
    simp
  refine eq_of_lookup hkeys (nodup_mergeEntries hus List.nodup_nil) fun k => ?_
  rw [lookup_mergeEntries hus]
  cases lookup k us with
  | none => rfl
  | some u => exact congrArg _ (mergeValue_none u)

/-! ## 4. Merging again -/

/-- **A value merged over itself** is itself. -/
theorem mergeValue_self (h : v.KeysDistinct) : mergeValue v (some v) = v := by
  induction h with
  | other hmap => exact mergeValue_of_not_isMap hmap _
  | @map es hnodup _ ih =>
    show Value.map (mergeEntries es es) = .map es
    have hkeys : (mergeEntries es es).map Prod.fst = es.map Prod.fst := by
      rw [keys_mergeEntries hnodup, mergedKeys_of_subset fun _ => id]
    refine congrArg _ (eq_of_lookup hkeys (nodup_mergeEntries hnodup hnodup) fun k => ?_)
    rw [lookup_mergeEntries hnodup]
    cases hk : lookup k es with
    | none => rfl
    | some w => exact congrArg _ (ih (k, w) (mem_of_lookup hk))

/-- **An update merged twice** is merged once. -/
theorem mergeValue_idem {u : Value} (hu : u.KeysDistinct) {b : Option Value}
    (hb : ∀ v, b = some v → v.KeysDistinct) : mergeValue u (some (mergeValue u b)) = mergeValue u b := by
  induction hu generalizing b with
  | other hmap => rw [mergeValue_of_not_isMap hmap, mergeValue_of_not_isMap hmap]
  | @map us hnodup hall ih =>
    by_cases hmap : ∃ bs, b = some (.map bs)
    · obtain ⟨bs, rfl⟩ := hmap
      have hbs : (Value.map bs).KeysDistinct := hb _ rfl
      have hmerged := nodup_mergeEntries hnodup hbs.nodup
      show Value.map (mergeEntries us (mergeEntries us bs)) = .map (mergeEntries us bs)
      -- the second merge adds no key, so the keys keep their order
      have hkeys : (mergeEntries us (mergeEntries us bs)).map Prod.fst =
          (mergeEntries us bs).map Prod.fst := by
        have hold : ∀ k ∈ us.map Prod.fst, k ∈ (mergeEntries us bs).map Prod.fst := by
          intro k hk
          rw [keys_mergeEntries hnodup, mergedKeys]
          by_cases hkb : k ∈ bs.map Prod.fst
          · exact List.mem_append_left _ hkb
          · exact List.mem_append_right _ (List.mem_filter.2 ⟨hk, decide_eq_true hkb⟩)
        rw [keys_mergeEntries hnodup, mergedKeys_of_subset hold]
      refine congrArg _ (eq_of_lookup hkeys (nodup_mergeEntries hnodup hmerged) fun k => ?_)
      rw [lookup_mergeEntries hnodup, lookup_mergeEntries hnodup]
      cases hk : lookup k us with
      | none => rfl
      | some u => exact congrArg _ (ih (k, u) (mem_of_lookup hk) fun v hv => hbs.lookup hv)
    · have hbase : ∀ bs, b ≠ some (.map bs) := fun bs he => hmap ⟨bs, he⟩
      rw [mergeValue_of_base hbase]
      exact mergeValue_self (.map hnodup hall)

/-! ## 5. Paths -/

/-- **The value at a path of keys**; only a map has anything below it. -/
def valueAt : (path : List String) → Value → Option Value
  | [], v => some v
  | k :: path, .map es => (lookup k es).bind (valueAt path)
  | _ :: _, _ => none

/-- **The value cuts the path**: what it has at the path, or on the way to it, is no map. -/
def Cuts (path : List String) (v : Value) : Prop :=
  ∃ before w, before <+: path ∧ valueAt before v = some w ∧ w.isMap = false

variable {path : List String} {u : Value} {b : Option Value}

theorem valueAt_cons (hv : v.isMap = false) : valueAt (k :: path) v = none := by
  cases v with
  | map es => cases hv
  | _ => rfl

theorem exists_map (hv : v.isMap = true) : ∃ es, v = .map es := by
  cases v with
  | map es => exact ⟨es, rfl⟩
  | _ => cases hv

theorem KeysDistinct.valueAt (h : u.KeysDistinct) (hv : valueAt path u = some v) : v.KeysDistinct := by
  induction path generalizing u with
  | nil =>
    cases hv
    exact h
  | cons k path ih =>
    cases hmap : u.isMap with
    | false =>
      rw [valueAt_cons hmap] at hv
      cases hv
    | true =>
      obtain ⟨us, rfl⟩ := exists_map hmap
      obtain ⟨x, hx, hbelow⟩ := Option.bind_eq_some_iff.1 hv
      exact ih (h.lookup hx) hbelow

/-- A base that is no map has nothing below it. -/
theorem bind_valueAt_cons (hb : ∀ bs, b ≠ some (.map bs)) : b.bind (valueAt (k :: path)) = none := by
  cases b with
  | none => rfl
  | some c =>
    cases hc : c.isMap with
    | false => exact valueAt_cons hc
    | true =>
      obtain ⟨bs, rfl⟩ := exists_map hc
      exact absurd rfl (hb bs)

/-- A map cuts a path where what it holds under the first key cuts the rest. -/
theorem cuts_map : Cuts (k :: path) (.map es) ↔ ∃ v, lookup k es = some v ∧ Cuts path v := by
  constructor
  · rintro ⟨before, w, hbefore, hw, hmap⟩
    cases before with
    | nil =>
      cases hw
      cases hmap
    | cons k' before =>
      obtain ⟨rfl, hrest⟩ := List.cons_prefix_cons.1 hbefore
      obtain ⟨v, hv, hbelow⟩ := Option.bind_eq_some_iff.1 hw
      exact ⟨v, hv, before, w, hrest, hbelow, hmap⟩
  · rintro ⟨v, hv, before, w, hbefore, hw, hmap⟩
    refine ⟨k :: before, w, List.cons_prefix_cons.2 ⟨rfl, hbefore⟩, ?_, hmap⟩
    exact Option.bind_eq_some_iff.2 ⟨v, hv, hw⟩

/-- **Where the update has a value**, it is merged over what the base has there. -/
theorem valueAt_mergeValue (hu : u.KeysDistinct) {w : Value} (hw : valueAt path u = some w) :
    valueAt path (mergeValue u b) = some (mergeValue w (b.bind (valueAt path))) := by
  induction path generalizing u b with
  | nil =>
    cases hw
    have hb : b.bind (valueAt []) = b := by cases b <;> rfl
    rw [hb]
    rfl
  | cons k path ih =>
    cases hmap : u.isMap with
    | false =>
      rw [valueAt_cons hmap] at hw
      cases hw
    | true =>
      obtain ⟨us, rfl⟩ := exists_map hmap
      by_cases hb : ∃ bs, b = some (.map bs)
      · obtain ⟨bs, rfl⟩ := hb
        obtain ⟨x, hx, hxw⟩ := Option.bind_eq_some_iff.1 hw
        show (lookup k (mergeEntries us bs)).bind (valueAt path) = _
        rw [lookup_mergeEntries hu.nodup, hx]
        exact ih (hu.lookup hx) hxw
      · have hbase : ∀ bs, b ≠ some (.map bs) := fun bs he => hb ⟨bs, he⟩
        rw [mergeValue_of_base hbase, hw, bind_valueAt_cons hbase]
        exact congrArg _ (mergeValue_none w).symm

/-- **Where the update says nothing**, the base is as it was; what the update cuts is gone. -/
theorem valueAt_mergeValue_none (hu : u.KeysDistinct) (hnone : valueAt path u = none) :
    (¬ Cuts path u → valueAt path (mergeValue u b) = b.bind (valueAt path)) ∧
      (Cuts path u → valueAt path (mergeValue u b) = none) := by
  induction path generalizing u b with
  | nil => cases hnone
  | cons k path ih =>
    cases hmap : u.isMap with
    | false =>
      -- anything but a map cuts off all that would be below it
      have hcut : Cuts (k :: path) u := ⟨[], u, List.nil_prefix, rfl, hmap⟩
      refine ⟨fun h => absurd hcut h, fun _ => ?_⟩
      rw [mergeValue_of_not_isMap hmap, hnone]
    | true =>
      obtain ⟨us, rfl⟩ := exists_map hmap
      by_cases hb : ∃ bs, b = some (.map bs)
      · obtain ⟨bs, rfl⟩ := hb
        rw [cuts_map]
        show (_ → (lookup k (mergeEntries us bs)).bind (valueAt path) = (lookup k bs).bind (valueAt path)) ∧
          (_ → (lookup k (mergeEntries us bs)).bind (valueAt path) = none)
        rw [lookup_mergeEntries hu.nodup]
        cases hx : lookup k us with
        | none =>
          refine ⟨fun _ => rfl, ?_⟩
          rintro ⟨v, hv, -⟩
          cases hv
        | some x =>
          have hrest : valueAt path x = none := by
            have hbelow : (lookup k us).bind (valueAt path) = none := hnone
            rwa [hx] at hbelow
          obtain ⟨hkeep, hgone⟩ := ih (b := lookup k bs) (hu.lookup hx) hrest
          refine ⟨fun h => hkeep fun hcut => h ⟨x, rfl, hcut⟩, ?_⟩
          rintro ⟨v, hv, hcut⟩
          cases hv
          exact hgone hcut
      -- onto anything but a map the update is put as it is
      · have hbase : ∀ bs, b ≠ some (.map bs) := fun bs he => hb ⟨bs, he⟩
        rw [mergeValue_of_base hbase, hnone, bind_valueAt_cons hbase]
        exact ⟨fun _ => rfl, fun _ => rfl⟩

/-! ## 6. Merging -/

theorem merge_maps (bs us : List (String × Value)) :
    merge (.map bs) (.map us) = .ok (.map (mergeEntries us bs)) := rfl

/-- **Merging overrides exactly what the update names.**  Take two maps in which no map has a key twice.
    At every path of keys the merged map has the update's value if that is no map, the two maps merged
    if both sides have one, and the update's map if the base has none there.  Where the update has
    nothing, the base's value stands, unless the update has something else than a map on the way; then
    there is nothing.  In each map that is merged the keys of the base keep their order, and the new
    ones follow in the order of the update.  To merge the update again changes nothing, a map without
    entries changes nothing on either side, and neither does a map merged over itself. -/
theorem merge_overrides (hbs : (Value.map bs).KeysDistinct) (hus : (Value.map us).KeysDistinct) :
    ∃ ms, merge (.map bs) (.map us) = .ok (.map ms) ∧
      (∀ path v, valueAt path (.map us) = some v → v.isMap = false →
        valueAt path (.map ms) = some v) ∧
      (∀ path us' bs', valueAt path (.map us) = some (.map us') →
        valueAt path (.map bs) = some (.map bs') →
        ∃ ms', merge (.map bs') (.map us') = .ok (.map ms') ∧
          valueAt path (.map ms) = some (.map ms') ∧ ms'.map Prod.fst = mergedKeys bs' us') ∧
      (∀ path us', valueAt path (.map us) = some (.map us') →
        (∀ bs', valueAt path (.map bs) ≠ some (.map bs')) →
        valueAt path (.map ms) = some (.map us')) ∧
      (∀ path, valueAt path (.map us) = none → ¬ Cuts path (.map us) →
        valueAt path (.map ms) = valueAt path (.map bs)) ∧
      (∀ path, valueAt path (.map us) = none → Cuts path (.map us) →
        valueAt path (.map ms) = none) ∧
      ms.map Prod.fst = mergedKeys bs us ∧
      merge (.map ms) (.map us) = .ok (.map ms) ∧
      merge (.map []) (.map us) = .ok (.map us) ∧
      merge (.map bs) (.map []) = .ok (.map bs) ∧
      merge (.map bs) (.map bs) = .ok (.map bs) := by
  have hsame : Value.map (mergeEntries us bs) = mergeValue (.map us) (some (.map bs)) := rfl
  refine ⟨mergeEntries us bs, merge_maps bs us, ?_, ?_, ?_, ?_, ?_, keys_mergeEntries hus.nodup, ?_, ?_,
    rfl, ?_⟩
  · intro path v hv hmap
    rw [hsame, valueAt_mergeValue hus hv, mergeValue_of_not_isMap hmap]
  · intro path us' bs' hu hb
    refine ⟨mergeEntries us' bs', merge_maps bs' us', ?_, keys_mergeEntries (hus.valueAt hu).nodup⟩
    rw [hsame, valueAt_mergeValue hus hu, Option.bind_some, hb]
    rfl
  · intro path us' hu hb
    rw [hsame, valueAt_mergeValue hus hu, Option.bind_some, mergeValue_of_base hb]
  · intro path hnone hcut
    rw [hsame]
    exact (valueAt_mergeValue_none hus hnone).1 hcut
  · intro path hnone hcut
    rw [hsame]
    exact (valueAt_mergeValue_none hus hnone).2 hcut
  · have hagain := mergeValue_idem hus (b := some (.map bs)) fun v hv => by
      cases hv
      exact hbs
    exact congrArg Except.ok hagain
  · rw [merge_maps, mergeEntries_nil hus.nodup]
  · exact congrArg Except.ok (mergeValue_self hbs)

/-! ## 7. Over the defaults -/

/-- A map whose values are no maps and whose keys are distinct. -/
theorem keysDistinct_flat (hkeys : (es.map Prod.fst).Nodup) (hflat : ∀ e ∈ es, e.2.isMap = false) :
    (Value.map es).KeysDistinct :=
  .map hkeys fun e he => .other (hflat e he)

/-- The defaults have no key twice, and so merging over them overrides just what a user names. -/
theorem keysDistinct_defaultConfig : defaultConfig.KeysDistinct := by
  refine .map (by decide) ?_
  rw [List.forall_mem_cons, List.forall_mem_cons, List.forall_mem_singleton]
  refine ⟨?_, ?_, ?_⟩
  · exact keysDistinct_flat (by decide) (by decide)
  · exact keysDistinct_flat (by decide) (by decide)
  · exact keysDistinct_flat (by decide) (by decide)

/-- An update that changes one limit, has a text where the defaults have a part, and names a new
    part. -/
def darkUpdate : List (String × Value) :=
  [("theme", .str "dark"), ("output", .str "plain"), ("serializer", .map [("head_items", .int 1)])]

theorem keysDistinct_darkUpdate : (Value.map darkUpdate).KeysDistinct := by
  refine .map (by decide) ?_
  rw [darkUpdate, List.forall_mem_cons, List.forall_mem_cons, List.forall_mem_singleton]
  exact ⟨.other rfl, .other rfl, keysDistinct_flat (by decide) (by decide)⟩

/-- **The update over the defaults**: the limit it names is changed and the one beside it is kept,
    the settings below the text are gone, and the new part stands last. -/
theorem merge_overrides_defaults :
    ∃ bs ms, defaultConfig = .map bs ∧ (Value.map bs).KeysDistinct ∧
      (Value.map darkUpdate).KeysDistinct ∧ merge defaultConfig (.map darkUpdate) = .ok (.map ms) ∧
      valueAt ["serializer", "head_items"] (.map ms) = some (.int 1) ∧
      valueAt ["serializer", "tail_items"] (.map ms) = some (.int 2) ∧
      valueAt ["output", "include_private"] (.map ms) = none ∧
      ms.map Prod.fst = ["serializer", "members", "output", "theme"] ∧
      merge (.map ms) (.map darkUpdate) = .ok (.map ms) := by
  obtain ⟨bs, hbs⟩ := exists_map (v := defaultConfig) rfl
  have hdistinct : (Value.map bs).KeysDistinct := hbs ▸ keysDistinct_defaultConfig
  obtain ⟨ms, hms, hover, -, -, hkeep, hgone, hkeys, hagain, -⟩ :=
    merge_overrides hdistinct keysDistinct_darkUpdate
  have hparts : bs.map Prod.fst = ["serializer", "members", "output"] := by
    cases hbs
    rfl
  have htail : valueAt ["serializer", "tail_items"] (.map bs) = some (.int 2) := hbs ▸ rfl
  have hnocut : ¬ Cuts ["serializer", "tail_items"] (.map darkUpdate) := by
    intro hcut
    obtain ⟨part, hpart, hcut'⟩ := cuts_map.1 hcut
    cases hpart
    obtain ⟨limit, hlimit, -⟩ := cuts_map.1 hcut'
    cases hlimit
  have hcut : Cuts ["output", "include_private"] (.map darkUpdate) :=
    ⟨["output"], .str "plain", by decide, rfl, rfl⟩
  refine ⟨bs, ms, hbs, hdistinct, keysDistinct_darkUpdate, hbs ▸ hms, hover _ _ rfl rfl, ?_,
    hgone _ rfl hcut, ?_, hagain⟩
  · rw [hkeep _ rfl hnocut, htail]
  · rw [hkeys, mergedKeys, hparts]
    rfl

end ApiReference.Value
