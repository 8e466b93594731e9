/-
  One record per source object.

  A registry numbers records in the order in which they are registered.  Most records belong to a
  key (a symbol, a type, a unit); some belong to none, such as a view of an inherited member.  A
  record is registered empty and filled afterwards, so a request for the same key made during the
  filling finds the unfinished record, and cyclic facts end.

  1. `Registry`      -- the slots, each a record with its key, if it has one;
  2. `find?`, `recordAt`, `position?` -- by key, by handle,
                                  by a position counted from either end;
  3. `push`, `modify`  -- the changes, and what they leave of every record.
-/
namespace ApiReference

/-- **Records in registration order**, each with the key it belongs to. -/
structure Registry (κ ρ : Type) where
  slots : Array (Option κ × ρ) := #[]

namespace Registry

variable {κ ρ : Type}

instance : Inhabited (Registry κ ρ) := ⟨{}⟩

/-- The number of records. -/
def size (r : Registry κ ρ) : Nat := r.slots.size

/-- The records in order. -/
def records (r : Registry κ ρ) : List ρ := r.slots.toList.map Prod.snd

/-- **The handle of a key**: the position of its record. -/
def find? [DecidableEq κ] (r : Registry κ ρ) (k : κ) : Option Nat :=
  r.slots.findIdx? (fun s => s.1 == some k)

/-- Has a record been registered for the key? -/
def contains [DecidableEq κ] (r : Registry κ ρ) (k : κ) : Bool := (r.find? k).isSome

/-- The record of a handle; a handle that was never given out has an empty record. -/
def recordAt [Inhabited ρ] (r : Registry κ ρ) (h : Nat) : ρ := ((r.slots[h]?).map Prod.snd).getD default

/-- A position counted from the start, or from the end when negative. -/
def position? (size : Nat) (i : Int) : Option Nat :=
  if 0 ≤ i then (if i.toNat < size then some i.toNat else none)
  else if i.natAbs ≤ size then some (size - i.natAbs) else none

/-- **A new record**, with its key if it has one; its handle is the size before. -/
def push (r : Registry κ ρ) (key : Option κ) (record : ρ) : Registry κ ρ :=
  ⟨r.slots.push (key, record)⟩

/-- A change of one record. -/
def modify (r : Registry κ ρ) (h : Nat) (f : ρ → ρ) : Registry κ ρ :=
  ⟨r.slots.modify h (fun s => (s.1, f s.2))⟩

@[simp] theorem size_push (r : Registry κ ρ) (key : Option κ) (record : ρ) :
    (r.push key record).size = r.size + 1 := by
  simp [push, size]

@[simp] theorem size_modify (r : Registry κ ρ) (h : Nat) (f : ρ → ρ) :
    (r.modify h f).size = r.size := by
  simp [modify, size]

/-- A new record has the next handle, and the records before it stay as they are. -/
theorem recordAt_push [Inhabited ρ] (r : Registry κ ρ) (key : Option κ) (record : ρ) (h : Nat) :
    (r.push key record).recordAt h = if h = r.size then record else r.recordAt h := by
  simp only [recordAt, push, size, Array.getElem?_push]
  by_cases e : h = r.slots.size
  · simp [e]
  · simp [e]

/-- A change reaches one record. -/
theorem recordAt_modify [Inhabited ρ] (r : Registry κ ρ) (f : ρ → ρ) {h : Nat} (hh : h < r.size)
    (i : Nat) : (r.modify h f).recordAt i = if i = h then f (r.recordAt i) else r.recordAt i := by
  simp only [recordAt, modify, Array.getElem?_modify]
  by_cases e : i = h
  · subst e
    have hi : i < r.slots.size := hh
    simp [hi]
  · simp [e, Ne.symm e]

end Registry

end ApiReference
