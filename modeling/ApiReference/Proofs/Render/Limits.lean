/-
  Which limits lose nothing.

  A long list is cut at two bounds that are set apart from each other.  The head and the tail have
  closed forms as long as the list has that many entries, and so the cut is judged by one comparison:
  the list is put together again by its three parts if the bounds do not cross, and something is hidden
  if they do not meet.  A list is never shorter than one more than the maximum, and that decides which
  limits are consistent for every list.

  1. `headOf_eq_take`, `tailOf_eq_drop`, `length_hiddenOf` -- the three parts;
  2. `parts_append_iff`, `hiddenOf_ne_nil_iff`             -- one list;
  3. `truncate_consistent`                                 -- every list.
-/
import ApiReference.Render.Token

namespace ApiReference.Limits

variable {l : Limits} {head tail : Nat} {α : Type} {es : List α}

/-! ## 1. Parts -/

/-- The bound before the tail is a position of the list. -/
theorem tail_bound (htail : l.tailItems = tail) (ht : tail ≤ es.length) :
    (es.length : Int) - l.tailItems = ((es.length - tail : Nat) : Int) := by omega

/-- **The head** is the first entries. -/
theorem headOf_eq_take (hhead : l.headItems = head) (hh : head ≤ es.length) :
    l.headOf es = es.take head := by
  have hzero : clampBound es.length 0 = 0 := clampBound_natCast (Nat.zero_le _)
  rw [headOf, slice, hhead, clampBound_natCast hh, hzero, List.drop_zero]

/-- **The tail** is the last entries. -/
theorem tailOf_eq_drop (htail : l.tailItems = tail) (ht : tail ≤ es.length) :
    l.tailOf es = es.drop (es.length - tail) := by
  rw [tailOf, slice, tail_bound htail ht, clampBound_natCast (Nat.sub_le _ _),
    clampBound_natCast (Nat.le_refl _), List.take_length]

/-- **What is hidden** lies between the two, and there is none of it if they cross. -/
theorem length_hiddenOf (hhead : l.headItems = head) (hh : head ≤ es.length)
    (htail : l.tailItems = tail) (ht : tail ≤ es.length) :
    (l.hiddenOf es).length = es.length - tail - head := by
  rw [hiddenOf, slice, tail_bound htail ht, hhead, clampBound_natCast hh,
    clampBound_natCast (Nat.sub_le _ _), List.length_drop, List.length_take]
  omega

/-! ## 2. One list -/

/-- **The three parts are the list** exactly if its ends do not overlap. -/
theorem parts_append_iff (hhead : l.headItems = head) (hh : head ≤ es.length)
    (htail : l.tailItems = tail) (ht : tail ≤ es.length) :
    l.headOf es ++ l.hiddenOf es ++ l.tailOf es = es ↔ head + tail ≤ es.length := by
  constructor
  · intro hparts
    -- parts that overlap have more entries than the list
    have hlength := congrArg List.length hparts
    rw [List.length_append, List.length_append, headOf_eq_take hhead hh, tailOf_eq_drop htail ht,
      length_hiddenOf hhead hh htail ht, List.length_take, List.length_drop] at hlength
    omega
  · intro hfits
    have hcut := slice_append es (show head ≤ es.length - tail by omega) (Nat.sub_le _ _)
    rw [headOf, hiddenOf, tailOf, hhead, tail_bound htail ht]
    exact hcut

/-- **Something is hidden** exactly if the ends leave an entry between them. -/
theorem hiddenOf_ne_nil_iff (hhead : l.headItems = head) (hh : head ≤ es.length)
    (htail : l.tailItems = tail) (ht : tail ≤ es.length) :
    l.hiddenOf es ≠ [] ↔ head + tail < es.length := by
  have hlength := length_hiddenOf hhead hh htail ht
  rw [ne_eq, ← List.length_eq_zero_iff, hlength]
  omega

/-! ## 3. Every list -/

/-- The marker of a shortened list: it counts the entries that it folds. -/
def markerOf (l : Limits) (separator : String) (es : List (List Token)) : Token :=
  .folded .more ("+" ++ toString (l.hiddenOf es).length ++ " more") (joinWith separator (l.hiddenOf es))

theorem truncate_of_lt {separator : String} {es : List (List Token)} (h : l.maxItems < es.length) :
    l.truncate separator es = l.headOf es ++ [l.markerOf separator es] :: l.tailOf es := by
  have hlong : ¬ (es.length : Int) ≤ l.maxItems := by omega
  rw [truncate, if_neg hlong]
  rfl

/-- **Exactly the consistent limits shorten without loss.**  Take a maximum that is not negative and
    ends of at most one entry more than it.  The head, what is hidden and the tail of every longer list
    are the list if and only if the two ends together have at most one entry more than the maximum;
    every longer list hides an entry if and only if they have no more than the maximum.  A longer list
    is shown as its first entries, a marker with the number of the hidden ones, which are its details,
    and its last entries; a list that is not longer stays as it is. -/
theorem truncate_consistent (l : Limits) (hmax : 0 ≤ l.maxItems)
    (hhead : 0 ≤ l.headItems ∧ l.headItems ≤ l.maxItems + 1)
    (htail : 0 ≤ l.tailItems ∧ l.tailItems ≤ l.maxItems + 1) (separator : String) :
    ((∀ es : List (List Token), l.maxItems < es.length →
        l.headOf es ++ l.hiddenOf es ++ l.tailOf es = es) ↔
      l.headItems + l.tailItems ≤ l.maxItems + 1) ∧
    ((∀ es : List (List Token), l.maxItems < es.length → l.hiddenOf es ≠ []) ↔
      l.headItems + l.tailItems ≤ l.maxItems) ∧
    (∀ es : List (List Token), l.maxItems < es.length →
      l.truncate separator es = l.headOf es ++ [l.markerOf separator es] :: l.tailOf es ∧
      (l.markerOf separator es).text = .str ("+" ++ toString (l.hiddenOf es).length ++ " more") ∧
      l.headOf es = es.take l.headItems.toNat ∧
      l.tailOf es = es.drop (es.length - l.tailItems.toNat) ∧
      (l.hiddenOf es).length = es.length - l.tailItems.toNat - l.headItems.toNat) ∧
    (∀ es : List (List Token), es.length ≤ l.maxItems → l.truncate separator es = es) := by
  obtain ⟨most, hmost⟩ := Int.eq_ofNat_of_zero_le hmax
  obtain ⟨head, hh⟩ := Int.eq_ofNat_of_zero_le hhead.1
  obtain ⟨tail, ht⟩ := Int.eq_ofNat_of_zero_le htail.1
  have hhead' : head ≤ most + 1 := by omega
  have htail' : tail ≤ most + 1 := by omega
  have hlong : ∀ {es : List (List Token)}, l.maxItems < es.length → most + 1 ≤ es.length := by
    intro es h
    omega
  -- the shortest list that is too long decides for all of them
  have hshortest : l.maxItems < (List.replicate (most + 1) ([] : List Token)).length := by
    rw [List.length_replicate]
    omega
  refine ⟨⟨fun hall => ?_, fun hfits es hes => ?_⟩, ⟨fun hall => ?_, fun hfits es hes => ?_⟩,
    fun es hes => ?_, fun es hes => ?_⟩
  · have hparts := hall _ hshortest
    rw [parts_append_iff hh (by simpa using hhead') ht (by simpa using htail'),
      List.length_replicate] at hparts
    omega
  · have hmore := hlong hes
    rw [parts_append_iff hh (by omega) ht (by omega)]
    omega
  · have hhides := hall _ hshortest
    rw [hiddenOf_ne_nil_iff hh (by simpa using hhead') ht (by simpa using htail'),
      List.length_replicate] at hhides
    omega
  · have hmore := hlong hes
    rw [hiddenOf_ne_nil_iff hh (by omega) ht (by omega)]
    omega
  · have hmore := hlong hes
    have htoHead : l.headItems.toNat = head := by omega
    have htoTail : l.tailItems.toNat = tail := by omega
    rw [htoHead, htoTail]
    exact ⟨truncate_of_lt hes, rfl, headOf_eq_take hh (by omega), tailOf_eq_drop ht (by omega),
      length_hiddenOf hh (by omega) ht (by omega)⟩
  · rw [truncate, if_pos hes]

/-- **Limits on the boundary**: two ends of two that leave no list of four or more without an entry,
    and yet nothing of it hidden at four. -/
theorem truncate_consistent_boundary :
    (∀ es : List (List Token), 3 < es.length →
      (Limits.mk 3 2 2 20).headOf es ++ (Limits.mk 3 2 2 20).hiddenOf es ++
        (Limits.mk 3 2 2 20).tailOf es = es) ∧
    ¬ (∀ es : List (List Token), 3 < es.length → (Limits.mk 3 2 2 20).hiddenOf es ≠ []) := by
  obtain ⟨hparts, hhides, -⟩ :=
    truncate_consistent (Limits.mk 3 2 2 20) (by decide) (by decide) (by decide) " | "
  constructor
  · intro es hes
    exact hparts.2 (by decide) es (Int.ofNat_lt.2 hes)
  · intro hall
    have hfits := hhides.1 fun es hes => hall es (Int.ofNat_lt.1 hes)
    exact absurd hfits (by decide)

end ApiReference.Limits
