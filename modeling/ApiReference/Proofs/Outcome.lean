/-
  What comes of computations that may fail.

  A question to the facts gives a result or a fault, one of which says that it goes round for ever; a
  rendering gives a text or stops.

  1. `bind_eq_ok`, `exists_ok_of_any` -- results of sequences, and of checks;
  2. `mapM_eq_ok` -- results for the elements of a list, and of folds;
  3. `Gives`      -- a result with a property, or any fault;
  4. `Settles`    -- a result with a property, or no end.
-/
import ApiReference.Facts.Basic
import Mathlib.Data.List.Basic
import Mathlib.Data.List.Forall2

namespace ApiReference

/-! ## 1. Sequences and checks -/

/-- A sequence has a result exactly where both of its steps have one. -/
theorem bind_eq_ok {ε α β : Type} {x : Except ε α} {g : α → Except ε β} {b : β} :
    x >>= g = .ok b ↔ ∃ a, x = .ok a ∧ g a = .ok b := by
  constructor
  · intro h
    cases x with
    | error e => cases h
    | ok a => exact ⟨a, rfl, h⟩
  · rintro ⟨a, rfl, h⟩
    exact h

theorem map_eq_ok {ε α β : Type} {x : Except ε α} {g : α → β} {b : β} :
    (do return g (← x)) = (Except.ok b : Except ε β) ↔ ∃ a, x = .ok a ∧ g a = b := by
  rw [bind_eq_ok]
  exact exists_congr fun a => and_congr_right fun _ => ⟨Except.ok.inj, congrArg _⟩

theorem ok_of_toOption {ε α : Type} {x : Except ε α} {a : α} (h : x.toOption = some a) : x = .ok a := by
  cases x with
  | error e => cases h
  | ok b => exact congrArg _ (Option.some.inj h)

/-- A computation whose result passes a check has a result. -/
theorem exists_ok_of_any {ε α : Type} {x : Except ε α} {p : α → Bool}
    (h : x.toOption.any p = true) : ∃ a, x = .ok a ∧ p a = true := by
  obtain ⟨a, ha, hp⟩ := (Option.any_eq_true p x.toOption).1 h
  exact ⟨a, ok_of_toOption ha, hp⟩

/-! ## 2. Lists -/

/-- One result for each element of a list. -/
theorem mapM_eq_ok {ε α β : Type} {g : α → Except ε β} {xs : List α} {ys : List β} :
    xs.mapM g = .ok ys ↔ xs.Forall₂ (fun a b => g a = .ok b) ys := by
  induction xs generalizing ys with
  | nil =>
    rw [List.forall₂_nil_left_iff]
    exact ⟨fun h => (Except.ok.inj h).symm, fun h => h ▸ rfl⟩
  | cons a r ih =>
    rw [List.mapM_cons, bind_eq_ok, List.forall₂_cons_left_iff]
    refine exists_congr fun b => ?_
    rw [map_eq_ok]
    constructor
    · rintro ⟨ha, bs, hr, rfl⟩
      exact ⟨bs, ha, ih.1 hr, rfl⟩
    · rintro ⟨bs, ha, hr, rfl⟩
      exact ⟨ha, bs, ih.2 hr, rfl⟩

/-- A fold that has a result has one at every element. -/
theorem exists_ok_of_foldlM {α σ : Type} {g : σ → α → Except Fault σ} {xs : List α} {s r : σ}
    (h : xs.foldlM g s = .ok r) : ∀ a ∈ xs, ∃ t t', g t a = .ok t' := by
  induction xs generalizing s with
  | nil => exact fun a ha => absurd ha List.not_mem_nil
  | cons x xs ih =>
    rw [List.foldlM_cons, bind_eq_ok] at h
    obtain ⟨s', hx, hxs⟩ := h
    exact List.forall_mem_cons.2 ⟨⟨s, s', hx⟩, ih hxs⟩

/-- A fold whose steps have results has the same with any steps that agree with these. -/
theorem foldlM_eq_ok {α σ : Type} {g g' : σ → α → Except Fault σ} {xs : List α}
    (hg : ∀ a ∈ xs, ∀ s r, g s a = .ok r → g' s a = .ok r) {s r : σ} (h : xs.foldlM g s = .ok r) :
    xs.foldlM g' s = .ok r := by
  induction xs generalizing s with
  | nil => exact h
  | cons x xs ih =>
    rw [List.foldlM_cons, bind_eq_ok] at h ⊢
    obtain ⟨s', hx, hxs⟩ := h
    exact ⟨s', hg x List.mem_cons_self s s' hx, ih (fun a ha => hg a (List.mem_cons_of_mem x ha)) hxs⟩

/-! ## 3. Results with a property -/

/-- **A question gives a result with `P`**, or a fault; only where `hang` holds does it go round for
    ever. -/
def Gives {α : Type} (hang : Prop) (P : α → Prop) : Except Fault α → Prop
  | .ok a => P a
  | .error f => f = .endless → hang

namespace Gives

variable {α β σ : Type} {hang : Prop} {P : α → Prop} {Q : β → Prop}

theorem pure {a : α} (ha : P a) : Gives hang P (Pure.pure a : Except Fault α) := ha

theorem error {f : Fault} (hf : f ≠ .endless) : Gives hang P (.error f : Except Fault α) :=
  fun h => absurd h hf

theorem bind {x : Except Fault α} {g : α → Except Fault β} (hx : Gives hang P x)
    (hg : ∀ a, P a → Gives hang Q (g a)) : Gives hang Q (x >>= g) := by
  cases x with
  | ok a => exact hg a hx
  | error f => exact hx

theorem mono {x : Except Fault α} {P' : α → Prop} (hx : Gives hang P x) (hp : ∀ a, P a → P' a) :
    Gives hang P' x := by
  cases x with
  | ok a => exact hp a hx
  | error f => exact hx

theorem weaken {hang' : Prop} {x : Except Fault α} (hx : Gives hang P x) (h : hang → hang') :
    Gives hang' P x := by
  cases x with
  | ok a => exact hx
  | error f => exact fun e => h (hx e)

/-- Any outcome at all; for the fields of a record that hold no reference. -/
theorem any (x : Except Fault α) : Gives True (fun _ => True) x := by
  cases x with
  | ok a => trivial
  | error f => exact fun _ => trivial

theorem and_ok {x : Except Fault α} (hx : Gives hang P x) :
    Gives hang (fun a => x = .ok a ∧ P a) x := by
  cases x with
  | ok a => exact ⟨rfl, hx⟩
  | error f => exact hx

theorem of_ok {x : Except Fault α} {a : α} (hx : Gives hang P x) (h : x = .ok a) : P a := by
  rw [h] at hx
  exact hx

/-- Two properties of one result. -/
theorem both {P' : α → Prop} {x : Except Fault α} (hp : Gives hang P x) (hp' : Gives hang P' x) :
    Gives hang (fun a => P a ∧ P' a) x :=
  hp.and_ok.mono fun _ h => ⟨h.2, hp'.of_ok h.1⟩

/-- A property of a sequence, before what comes after it. -/
theorem onward {x : Except Fault α} {g : α → Except Fault β} {k : β → Except Fault σ} {R : σ → Prop}
    (h : Gives hang Q (x >>= g)) (hk : ∀ b, Q b → Gives hang R (k b)) :
    Gives hang R (x >>= fun a => g a >>= k) := by
  cases x with
  | ok a =>
    show Gives hang R (g a >>= k)
    exact Gives.bind h hk
  | error f => exact h

/-- One question for each element of a list. -/
theorem mapM {xs : List α} {g : α → Except Fault β} (hg : ∀ a ∈ xs, Gives hang Q (g a)) :
    Gives hang (fun bs => ∀ b ∈ bs, Q b) (xs.mapM g) := by
  induction xs with
  | nil => exact fun b hb => absurd hb List.not_mem_nil
  | cons a r ih =>
    rw [List.mapM_cons]
    refine bind (hg a List.mem_cons_self) fun b hb => ?_
    refine bind (ih fun x hx => hg x (List.mem_cons_of_mem a hx)) fun bs hbs => ?_
    refine pure fun x hx => ?_
    rcases List.mem_cons.1 hx with rfl | hx
    · exact hb
    · exact hbs x hx

/-- One result for each element of a list, related to it. -/
theorem forall₂ {xs : List α} {g : α → Except Fault β} {R : α → β → Prop}
    (hg : ∀ a ∈ xs, Gives hang (R a) (g a)) : Gives hang (xs.Forall₂ R) (xs.mapM g) := by
  induction xs with
  | nil => exact .nil
  | cons a r ih =>
    rw [List.mapM_cons]
    refine (hg a List.mem_cons_self).bind fun b hb => ?_
    refine (ih fun x hx => hg x (List.mem_cons_of_mem a hx)).bind fun bs hbs => Gives.pure ?_
    exact .cons hb hbs

/-- A fold that keeps an invariant of its state. -/
theorem foldlM {I : σ → Prop} {g : σ → α → Except Fault σ} {xs : List α}
    (hg : ∀ t a, a ∈ xs → I t → Gives hang I (g t a)) {t : σ} (ht : I t) :
    Gives hang I (xs.foldlM g t) := by
  induction xs generalizing t with
  | nil => exact ht
  | cons a r ih =>
    rw [List.foldlM_cons]
    refine bind (hg t a List.mem_cons_self ht) fun u hu => ?_
    exact ih (fun t b hb => hg t b (List.mem_cons_of_mem a hb)) hu

end Gives

/-- A reference that must be there. -/
theorem gives_present {α : Type} {hang : Prop} (o : Option α) :
    Gives hang (fun a => o = some a) (present o) := by
  cases o with
  | none => exact Gives.error (by decide)
  | some a => rfl

/-! ## 4. Results, or no end -/

/-- **A walk settles**: it gives a result with `P`, or goes on for ever, which it may where `hang`
    holds. -/
def Settles {α : Type} (hang : Prop) (P : α → Prop) : Except Fault α → Prop
  | .ok a => P a
  | .error e => e = .endless ∧ hang

namespace Settles

variable {α β σ : Type} {hang : Prop} {P : α → Prop} {Q : β → Prop}

theorem bind {x : Except Fault α} {g : α → Except Fault β} (hx : Settles hang P x)
    (hg : ∀ a, P a → Settles hang Q (g a)) : Settles hang Q (x >>= g) := by
  cases x with
  | ok a => exact hg a hx
  | error e => exact hx

/-- What may not go on for ever has a result. -/
theorem exists_ok {x : Except Fault α} (hx : Settles False P x) : ∃ a, x = .ok a ∧ P a := by
  cases x with
  | ok a => exact ⟨a, rfl, hx⟩
  | error e => exact hx.2.elim

/-- What has no result goes on for ever. -/
theorem eq_endless {x : Except Fault α} (hx : Settles hang P x) (h : ∀ a, x ≠ .ok a) :
    x = .error .endless := by
  cases x with
  | ok a => exact absurd rfl (h a)
  | error e => rw [hx.1]

theorem foldlM {g : σ → α → Except Fault σ} {I : σ → Prop} {xs : List α}
    (hg : ∀ s, ∀ a ∈ xs, I s → Settles hang I (g s a)) {s : σ} (hs : I s) :
    Settles hang I (xs.foldlM g s) := by
  induction xs generalizing s with
  | nil => exact hs
  | cons a r ih =>
    rw [List.foldlM_cons]
    refine (hg s a List.mem_cons_self hs).bind fun s' hs' => ?_
    exact ih (fun s x hx => hg s x (List.mem_cons_of_mem a hx)) hs'

end Settles

end ApiReference
