/-
  Display order.

  Members are sorted by their keys, and equal keys keep their order.  A list may hold members whose keys
  are not known to last, so the order is stated of those that are: the others may stand anywhere.

  1. `keyLe`         -- the order of keys is total and transitive;
  2. `InOrder`       -- a list in the order of keys, as far as some of its entries go;
  3. `sortMembers`   -- puts members in order, and loses and invents none;
  4. `eraseDups_concat`, `nodup_eraseDups` -- entries in the order in which they were first met.
-/
import ApiReference.Model.ClassView
import Mathlib.Data.List.Induction
import Mathlib.Data.List.Nodup

namespace ApiReference

/-! ## 1. Keys -/

theorem keyLe_total (a b : List Int) : keyLe a b = true ∨ keyLe b a = true := by
  induction a generalizing b with
  | nil => exact .inl (by unfold keyLe; rfl)
  | cons x a ih =>
    cases b with
    | nil => exact .inr (by unfold keyLe; rfl)
    | cons y b =>
      unfold keyLe
      simp only [Bool.or_eq_true, Bool.and_eq_true, decide_eq_true_eq, beq_iff_eq]
      rcases Int.lt_trichotomy x y with hlt | rfl | hlt
      · exact .inl (.inl hlt)
      · exact (ih b).imp (fun h => .inr ⟨rfl, h⟩) fun h => .inr ⟨rfl, h⟩
      · exact .inr (.inl hlt)

theorem keyLe_refl (a : List Int) : keyLe a a = true := (keyLe_total a a).elim id id

theorem keyLe_trans {a b c : List Int} (hab : keyLe a b = true) (hbc : keyLe b c = true) :
    keyLe a c = true := by
  induction a generalizing b c with
  | nil => unfold keyLe; rfl
  | cons x a ih =>
    cases b with
    | nil => exact absurd hab (by unfold keyLe; exact Bool.false_ne_true)
    | cons y b =>
      cases c with
      | nil => exact absurd hbc (by unfold keyLe; exact Bool.false_ne_true)
      | cons z c =>
        unfold keyLe at hab hbc ⊢
        simp only [Bool.or_eq_true, Bool.and_eq_true, decide_eq_true_eq, beq_iff_eq] at hab hbc ⊢
        rcases hab with hxy | ⟨rfl, hab⟩
        · rcases hbc with hyz | ⟨rfl, -⟩
          · exact .inl (Int.lt_trans hxy hyz)
          · exact .inl hxy
        · rcases hbc with hyz | ⟨rfl, hbc⟩
          · exact .inl hyz
          · exact .inr ⟨rfl, ih hab hbc⟩

/-! ## 2. Lists in order -/

/-- **A list in the order of keys**, as far as the entries with `p` go: each of these has a key no less
    than that of the one before it, and those with the same key stand as they were given. -/
structure InOrder {α : Type} (p : α → Bool) (key : α → List Int) (given shown : List α) : Prop where
  sorted : (shown.filter p).Pairwise fun a b => keyLe (key a) (key b) = true
  stable : ∀ k, (shown.filter fun a => p a && key a == k) = given.filter fun a => p a && key a == k

namespace InOrder

variable {α : Type} {p p' : α → Bool} {key key' : α → List Int} {given shown : List α}

/-- **The order of fewer entries**, whose keys are as they were. -/
theorem mono (h : InOrder p key given shown) (hperm : shown.Perm given)
    (hp : ∀ a, p' a = true → p a = true)
    (hkey : ∀ a ∈ given, p' a = true → key' a = key a) : InOrder p' key' given shown := by
  have hfewer : ∀ l : List α, l.filter p' = (l.filter p).filter p' := by
    intro l
    rw [List.filter_filter]
    refine List.filter_congr fun a _ => ?_
    cases hpa : p' a with
    | false => rfl
    | true => rw [hp a hpa, Bool.and_self]
  have hsame : ∀ (k : List Int) (l : List α), (∀ a ∈ l, a ∈ given) →
      (l.filter fun a => p' a && key' a == k) = (l.filter fun a => p a && key a == k).filter p' := by
    intro k l hl
    rw [List.filter_filter]
    refine List.filter_congr fun a ha => ?_
    cases hpa : p' a with
    | false => rfl
    | true => rw [hp a hpa, hkey a (hl a ha) hpa, Bool.true_and, Bool.true_and]
  constructor
  · rw [hfewer]
    refine (h.sorted.filter p').imp_of_mem fun {a b} ha hb hle => ?_
    have hin : ∀ x ∈ (shown.filter p).filter p', x ∈ given ∧ p' x = true := fun x hx =>
      ⟨hperm.mem_iff.1 (List.mem_filter.1 (List.mem_filter.1 hx).1).1, (List.mem_filter.1 hx).2⟩
    rw [hkey a (hin a ha).1 (hin a ha).2, hkey b (hin b hb).1 (hin b hb).2]
    exact hle
  · intro k
    rw [hsame k shown fun a ha => hperm.mem_iff.1 ha, hsame k given fun a ha => ha, h.stable]

end InOrder

/-! ## 3. Sorting -/

theorem perm_sortMembers (m : Model) (given : List MemberHandle) : (sortMembers m given).Perm given :=
  List.mergeSort_perm _ _

/-- Members sorted for display, or not. -/
theorem perm_shown (m : Model) (sorted : Bool) (given : List MemberHandle) :
    (if sorted then sortMembers m given else given).Perm given := by
  split
  · exact perm_sortMembers m given
  · exact .refl _

/-- **Sorting puts members in the order of their keys.** -/
theorem inOrder_sortMembers (m : Model) (given : List MemberHandle) :
    InOrder (fun _ => true) (fun a => (m.member a).sortKey) given (sortMembers m given) := by
  have htrans : ∀ a b c : MemberHandle, keyLe (m.member a).sortKey (m.member b).sortKey = true →
      keyLe (m.member b).sortKey (m.member c).sortKey = true →
      keyLe (m.member a).sortKey (m.member c).sortKey = true := fun _ _ _ => keyLe_trans
  have htotal : ∀ a b : MemberHandle, (keyLe (m.member a).sortKey (m.member b).sortKey ||
      keyLe (m.member b).sortKey (m.member a).sortKey) = true :=
    fun _ _ => Bool.or_eq_true_iff.2 (keyLe_total _ _)
  constructor
  · exact (List.pairwise_mergeSort htrans htotal given).filter _
  · intro k
    -- those with one key are sorted as they are given, so they come out as they went in
    have hsublist : (given.filter fun a => true && (m.member a).sortKey == k).Sublist
        (sortMembers m given) := by
      refine List.sublist_mergeSort htrans htotal (List.pairwise_of_forall_mem_list fun a ha b hb => ?_)
        List.filter_sublist
      have hkey : ∀ x ∈ given.filter (fun a => true && (m.member a).sortKey == k),
          (m.member x).sortKey = k := fun x hx => beq_iff_eq.1 (List.mem_filter.1 hx).2
      rw [hkey a ha, hkey b hb]
      exact keyLe_refl k
    have hfiltered := hsublist.filter fun a => true && (m.member a).sortKey == k
    rw [List.filter_filter] at hfiltered
    simp only [Bool.and_self] at hfiltered
    exact (hfiltered.eq_of_length ((perm_sortMembers m given).filter _).length_eq.symm).symm

/-! ## 4. First occurrences -/

section FirstOccurrences

variable {α : Type} [DecidableEq α] {a : α}

/-- What occurred before does not occur for the first time. -/
theorem eraseDups_append_cons_of_mem {l : List α} (h : a ∈ l) (r : List α) :
    (l ++ a :: r).eraseDups = (l ++ r).eraseDups := by
  rw [List.eraseDups_append, List.eraseDups_append, List.removeAll, List.removeAll,
    List.filter_cons_of_neg (by simpa using h)]

/-- Its place is none of its neighbours' business. -/
theorem eraseDups_swap_of_mem {b : α} {l : List α} (h : a ∈ l) (r : List α) :
    (l ++ a :: b :: r).eraseDups = (l ++ b :: a :: r).eraseDups := by
  have hb : (l ++ b :: a :: r).eraseDups = (l ++ b :: r).eraseDups := by
    have := eraseDups_append_cons_of_mem (List.mem_append_left [b] h) r
    simpa only [List.append_assoc, List.singleton_append] using this
  rw [hb, eraseDups_append_cons_of_mem h]

/-- One more occurrence comes last when it is the first. -/
theorem eraseDups_concat (l : List α) :
    (l ++ [a]).eraseDups = if a ∈ l then l.eraseDups else l.eraseDups ++ [a] := by
  split
  next h => rw [eraseDups_append_cons_of_mem h, List.append_nil]
  next h =>
    rw [List.eraseDups_append, List.removeAll, List.filter_cons_of_pos (by simpa using h),
      List.filter_nil, List.eraseDups_cons, List.filter_nil, List.eraseDups_nil]

/-- What is selected from a list, without repetitions: one entry more adds what was not selected yet. -/
theorem eraseDups_filterMap_concat {β : Type} (f : β → Option α) (l : List β) (x : β) :
    ((l ++ [x]).filterMap f).eraseDups =
      match f x with
      | some a => if a ∈ (l.filterMap f).eraseDups then (l.filterMap f).eraseDups
        else (l.filterMap f).eraseDups ++ [a]
      | none => (l.filterMap f).eraseDups := by
  rw [List.filterMap_append]
  cases h : f x with
  | none => rw [List.filterMap_cons_none h, List.filterMap_nil, List.append_nil]
  | some a =>
    rw [List.filterMap_cons_some h, List.filterMap_nil, eraseDups_concat]
    simp only [List.mem_eraseDups]

theorem nodup_eraseDups (l : List α) : l.eraseDups.Nodup := by
  induction l using List.reverseRecOn with
  | nil => exact List.nodup_nil
  | append_singleton l a ih =>
    rw [eraseDups_concat]
    split
    next => exact ih
    next h =>
      refine List.nodup_append.2 ⟨ih, List.nodup_singleton a, fun x hx y hy hxy => h ?_⟩
      rw [← List.mem_singleton.1 hy, ← hxy]
      exact List.mem_eraseDups.1 hx

/-- The same occurrences in another order. -/
theorem perm_eraseDups {l r : List α} (h : l.Perm r) : l.eraseDups.Perm r.eraseDups :=
  (List.perm_ext_iff_of_nodup (nodup_eraseDups l) (nodup_eraseDups r)).2 fun x => by
    rw [List.mem_eraseDups, List.mem_eraseDups, h.mem_iff]

end FirstOccurrences

end ApiReference
