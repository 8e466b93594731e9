/-
  Keys and handles.

  A registry is a list of slots, so what a key finds is a position, and what a position holds is a key
  and a record.  The two directions agree as long as no key is registered twice, which is what a
  request sees to: it registers a key only after looking for it.

  1. `keyAt`           -- the key of a position, after every change;
  2. `find?`           -- the position of a key, after every change;
  3. `KeysDistinct`    -- no key twice: a position found by its own key, and by no other;
  4. `Grows`           -- what every change keeps: positions, and their keys.
-/
import ApiReference.Registry
import Mathlib.Data.List.Basic

namespace ApiReference.Registry

variable {κ ρ : Type}

/-! ## 1. The key of a position -/

/-- The key of the record at a position, if it has one. -/
def keyAt (r : Registry κ ρ) (h : Nat) : Option κ := (r.slots[h]?).bind Prod.fst

theorem keyAt_of_size_le {r : Registry κ ρ} {h : Nat} (hh : r.size ≤ h) : r.keyAt h = none := by
  have hs : r.slots[h]? = none := Array.getElem?_eq_none hh
  rw [keyAt, hs]
  rfl

theorem recordAt_of_size_le [Inhabited ρ] {r : Registry κ ρ} {h : Nat} (hh : r.size ≤ h) :
    r.recordAt h = default := by
  have hs : r.slots[h]? = none := Array.getElem?_eq_none hh
  rw [recordAt, hs]
  rfl

theorem keyAt_push (r : Registry κ ρ) (key : Option κ) (record : ρ) (h : Nat) :
    (r.push key record).keyAt h = if h = r.size then key else r.keyAt h := by
  simp only [keyAt, push, size, Array.getElem?_push]
  by_cases e : h = r.slots.size
  · simp [e]
  · simp [e]

@[simp] theorem keyAt_modify (r : Registry κ ρ) (i : Nat) (f : ρ → ρ) (h : Nat) :
    (r.modify i f).keyAt h = r.keyAt h := by
  simp only [keyAt, modify, Array.getElem?_modify]
  by_cases e : i = h
  · subst e
    cases r.slots[i]? <;> simp
  · simp [e]

/-- A change of one record leaves every other as it was, also where there is no such record. -/
theorem recordAt_modify_ne [Inhabited ρ] (r : Registry κ ρ) (f : ρ → ρ) {h i : Nat} (hi : i ≠ h) :
    (r.modify h f).recordAt i = r.recordAt i := by
  simp only [recordAt, modify, Array.getElem?_modify, Ne.symm hi, if_false]

/-- A change that has no record to reach does nothing. -/
theorem modify_of_size_le {r : Registry κ ρ} {h : Nat} (hh : r.size ≤ h) (f : ρ → ρ) :
    r.modify h f = r := by
  obtain ⟨slots⟩ := r
  have hs : ¬ h < slots.size := Nat.not_lt.2 hh
  simp [modify, Array.modify, Array.modifyM, hs]

theorem slots_ext {r r' : Registry κ ρ} (h : ∀ i : Nat, r.slots[i]? = r'.slots[i]?) : r = r' := by
  obtain ⟨a⟩ := r
  obtain ⟨b⟩ := r'
  congr
  exact Array.ext_getElem? h

/-- A change writes what it makes of the record that is there. -/
theorem modify_const [Inhabited ρ] (r : Registry κ ρ) (h : Nat) (f : ρ → ρ) :
    r.modify h f = r.modify h (fun _ => f (r.recordAt h)) := by
  refine slots_ext fun i => ?_
  simp only [modify, Array.getElem?_modify, recordAt]
  by_cases e : h = i
  · subst e
    cases r.slots[h]? <;> simp
  · simp [e]

/-- Two changes of one record. -/
theorem modify_modify (r : Registry κ ρ) (h : Nat) (f g : ρ → ρ) :
    (r.modify h f).modify h g = r.modify h (fun x => g (f x)) := by
  refine slots_ext fun i => ?_
  simp only [modify, Array.getElem?_modify]
  by_cases e : h = i
  · cases r.slots[i]? <;> simp [e]
  · simp [e]

/-- What holds of all records and of the one written holds of all records after the write. -/
theorem recordAt_write [Inhabited ρ] {P : ρ → Prop} {r : Registry κ ρ} (hr : ∀ i, P (r.recordAt i))
    {x : ρ} (hx : P x) (h i : Nat) : P ((r.modify h (fun _ => x)).recordAt i) := by
  by_cases hh : h < r.size
  · rw [recordAt_modify _ _ hh]
    split
    · exact hx
    · exact hr i
  · rw [modify_of_size_le (Nat.not_lt.1 hh)]
    exact hr i

theorem recordAt_add [Inhabited ρ] {P : ρ → Prop} {r : Registry κ ρ} (hr : ∀ i, P (r.recordAt i))
    {x : ρ} (hx : P x) (key : Option κ) (i : Nat) : P ((r.push key x).recordAt i) := by
  rw [recordAt_push]
  split
  · exact hx
  · exact hr i

/-! ## 2. The position of a key -/

variable [DecidableEq κ]

/-- A key that is found stands at the position found. -/
theorem keyAt_of_find? {r : Registry κ ρ} {k : κ} {h : Nat} (hk : r.find? k = some h) :
    r.keyAt h = some k := by
  obtain ⟨hs, hp, -⟩ := Array.findIdx?_eq_some_iff_getElem.1 hk
  rw [keyAt, Array.getElem?_eq_getElem hs]
  simpa using hp

theorem lt_size_of_find? {r : Registry κ ρ} {k : κ} {h : Nat} (hk : r.find? k = some h) :
    h < r.size := by
  obtain ⟨hs, -⟩ := Array.findIdx?_eq_some_iff_getElem.1 hk
  exact hs

/-- A key that is not found stands nowhere. -/
theorem keyAt_ne_of_find? {r : Registry κ ρ} {k : κ} (hk : r.find? k = none) (h : Nat) :
    r.keyAt h ≠ some k := by
  intro hat
  rw [keyAt] at hat
  obtain ⟨slot, hs, hk'⟩ := Option.bind_eq_some_iff.1 hat
  obtain ⟨hlt, he⟩ := Array.getElem?_eq_some_iff.1 hs
  have hnone := (Array.findIdx?_eq_none_iff.1 hk) slot (he ▸ Array.getElem_mem hlt)
  rw [hk'] at hnone
  simp at hnone

@[simp] theorem find?_modify (r : Registry κ ρ) (i : Nat) (f : ρ → ρ) (k : κ) :
    (r.modify i f).find? k = r.find? k := by
  obtain ⟨slots⟩ := r
  simp only [find?, modify]
  apply Option.ext
  intro h
  simp only [Array.findIdx?_eq_some_iff_getElem, Array.size_modify, Array.getElem_modify]
  constructor
  · rintro ⟨hs, hp, hq⟩
    refine ⟨hs, by split at hp <;> exact hp, fun j hj => ?_⟩
    have := hq j hj
    split at this <;> exact this
  · rintro ⟨hs, hp, hq⟩
    refine ⟨hs, by split <;> exact hp, fun j hj => ?_⟩
    split <;> exact hq j hj

theorem find?_push (r : Registry κ ρ) (key : Option κ) (record : ρ) (k : κ) :
    (r.push key record).find? k =
      (r.find? k).or (if key = some k then some r.size else none) := by
  simp only [find?, push, Array.findIdx?_push, size]
  cases r.slots.findIdx? (fun s => s.1 == some k) with
  | none => by_cases hk : key = some k <;> simp [hk]
  | some h => simp

theorem find?_push_ne {key : Option κ} {k : κ} (h : key ≠ some k) (r : Registry κ ρ) (record : ρ) :
    (r.push key record).find? k = r.find? k := by
  rw [find?_push, if_neg h, Option.or_none]

theorem find?_push_none (r : Registry κ ρ) (record : ρ) (k : κ) :
    (r.push none record).find? k = r.find? k := by
  rw [find?_push]
  simp

theorem find?_push_self {r : Registry κ ρ} {k : κ} (hk : r.find? k = none) (record : ρ) :
    (r.push (some k) record).find? k = some r.size := by
  rw [find?_push, hk]
  simp

/-- What was found before a registration is found after it. -/
theorem find?_push_of_some {r : Registry κ ρ} {k : κ} {h : Nat} (hk : r.find? k = some h)
    (key : Option κ) (record : ρ) : (r.push key record).find? k = some h := by
  rw [find?_push, hk]
  rfl

/-- What is found after a registration was found before it, or is the new record. -/
theorem find?_push_some {r : Registry κ ρ} {key k : κ} {record : ρ} {h : Nat}
    (hk : (r.push (some key) record).find? k = some h) : r.find? k = some h ∨ h = r.size := by
  rw [find?_push] at hk
  cases hold : r.find? k with
  | some i =>
    rw [hold] at hk
    exact .inl hk
  | none =>
    rw [hold, Option.none_or] at hk
    split at hk
    · exact .inr (Option.some.inj hk).symm
    · exact nomatch hk

/-! ## 3. No key twice -/

/-- **No key is registered twice**: every position is the one its key finds. -/
def KeysDistinct (r : Registry κ ρ) : Prop := ∀ h k, r.keyAt h = some k → r.find? k = some h

theorem KeysDistinct.push_none {r : Registry κ ρ} (hr : r.KeysDistinct) (record : ρ) :
    (r.push none record).KeysDistinct := by
  intro h k hk
  rw [keyAt_push] at hk
  rw [find?_push_none]
  by_cases e : h = r.size
  · simp [e] at hk
  · rw [if_neg e] at hk
    exact hr h k hk

theorem KeysDistinct.push_some {r : Registry κ ρ} (hr : r.KeysDistinct) {k : κ}
    (hk : r.find? k = none) (record : ρ) : (r.push (some k) record).KeysDistinct := by
  intro h j hj
  rw [keyAt_push] at hj
  by_cases e : h = r.size
  · rw [if_pos e] at hj
    cases hj
    rw [e]
    exact find?_push_self hk record
  · rw [if_neg e] at hj
    exact find?_push_of_some (hr h j hj) (some k) record

theorem KeysDistinct.modify {r : Registry κ ρ} (hr : r.KeysDistinct) (i : Nat) (f : ρ → ρ) :
    (r.modify i f).KeysDistinct := by
  intro h k hk
  rw [keyAt_modify] at hk
  rw [find?_modify]
  exact hr h k hk

/-- **The record at a position is cached for exactly one key**, its own, **or for none**. -/
def CachedOnce (r : Registry κ ρ) (h : Nat) : Prop :=
  (∃ k, r.keyAt h = some k ∧ ∀ k', r.find? k' = some h ↔ k' = k) ∨
  (r.keyAt h = none ∧ ∀ k, r.find? k ≠ some h)

theorem KeysDistinct.cachedOnce {r : Registry κ ρ} (hr : r.KeysDistinct) (h : Nat) :
    r.CachedOnce h := by
  cases hkey : r.keyAt h with
  | some k =>
    refine .inl ⟨k, hkey, fun k' => ⟨fun hk' => ?_, fun he => ?_⟩⟩
    · have hother : r.keyAt h = some k' := keyAt_of_find? hk'
      exact Option.some.inj (hother.symm.trans hkey)
    · rw [he]
      exact hr h k hkey
  | none =>
    refine .inr ⟨hkey, fun k hk => ?_⟩
    have hsome : r.keyAt h = some k := keyAt_of_find? hk
    rw [hkey] at hsome
    exact nomatch hsome

/-! ## 4. Growth -/

/-- **A registry with more records**: positions keep their keys, and keys their positions. -/
structure Grows (r r' : Registry κ ρ) : Prop where
  size : r.size ≤ r'.size
  keyAt : ∀ h, h < r.size → r'.keyAt h = r.keyAt h
  find? : ∀ k h, r.find? k = some h → r'.find? k = some h

theorem Grows.refl (r : Registry κ ρ) : r.Grows r :=
  ⟨Nat.le_refl _, fun _ _ => rfl, fun _ _ h => h⟩

theorem Grows.trans {r r' r'' : Registry κ ρ} (h : r.Grows r') (h' : r'.Grows r'') : r.Grows r'' where
  size := Nat.le_trans h.size h'.size
  keyAt := by
    intro i hi
    rw [h'.keyAt i (Nat.lt_of_lt_of_le hi h.size), h.keyAt i hi]
  find? := fun k i hi => h'.find? k i (h.find? k i hi)

/-- Without more records there are no more keys. -/
theorem Grows.find?_eq {r r' : Registry κ ρ} (h : r.Grows r') (hsize : r'.size = r.size) (k : κ) :
    r'.find? k = r.find? k := by
  cases hk : r.find? k with
  | some i => exact h.find? k i hk
  | none =>
    cases hk' : r'.find? k with
    | none => rfl
    | some i =>
      have hin : i < r.size := Nat.lt_of_lt_of_eq (lt_size_of_find? hk') hsize
      exact absurd ((h.keyAt i hin).symm.trans (keyAt_of_find? hk')) (keyAt_ne_of_find? hk i)

/-- A key that stands somewhere is found somewhere. -/
theorem exists_find? {r : Registry κ ρ} {h : Nat} {k : κ} (hk : r.keyAt h = some k) :
    ∃ i, r.find? k = some i := by
  cases hfind : r.find? k with
  | some i => exact ⟨i, rfl⟩
  | none => exact absurd hk (keyAt_ne_of_find? hfind h)

/-- Keys that are distinct in the end were distinct before. -/
theorem KeysDistinct.of_grows {r r' : Registry κ ρ} (h : r.Grows r') (h' : r'.KeysDistinct) :
    r.KeysDistinct := by
  intro i k hk
  have hin : i < r.size := by
    by_contra hout
    rw [keyAt_of_size_le (Nat.not_lt.1 hout)] at hk
    cases hk
  obtain ⟨j, hj⟩ := exists_find? hk
  have hlast : r'.find? k = some i := h' i k ((h.keyAt i hin).trans hk)
  rw [hj, ← h.find? k j hj, hlast]

theorem grows_push (r : Registry κ ρ) (key : Option κ) (record : ρ) :
    r.Grows (r.push key record) where
  size := by
    rw [size_push]
    exact Nat.le_succ _
  keyAt := fun h hh => by rw [keyAt_push, if_neg (Nat.ne_of_lt hh)]
  find? := fun _ _ hk => find?_push_of_some hk key record

theorem grows_modify (r : Registry κ ρ) (i : Nat) (f : ρ → ρ) : r.Grows (r.modify i f) where
  size := Nat.le_of_eq (size_modify r i f).symm
  keyAt := fun h _ => keyAt_modify r i f h
  find? := fun k h hk => by rw [find?_modify, hk]

end ApiReference.Registry
