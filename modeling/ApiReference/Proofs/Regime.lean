/-
  Computations that change a state and may fail, and what every state they pass must keep.

  Builds change a store and sessions change a session; both end in a result or a fault, and a fault
  keeps what was changed before it.  A regime says what holds of each state, what a later state
  keeps of an earlier one and what only faults break, and its rules follow a computation through its
  text.

  1. one computation after another;
  2. `Regime`, `Regime.Allows` -- the statement, and how it is put together;
  3. `Regime.Repeats`   -- what is asked again gives the same.
-/
import ApiReference.Proofs.Facts.Declared

namespace ApiReference

variable {σ α β : Type}

/-! ## 1. One after another -/

theorem run_bind_ok {x : ExceptT Fault (StateM σ) α} {g : α → ExceptT Fault (StateM σ) β} {a : α}
    {s s' : σ} (h : x.run s = (.ok a, s')) : (x >>= g).run s = (g a).run s' := by
  show ExceptT.bindCont g (x.run s).1 (x.run s).2 = _
  rw [h]
  rfl

theorem run_bind_error {x : ExceptT Fault (StateM σ) α} {g : α → ExceptT Fault (StateM σ) β}
    {f : Fault} {s s' : σ} (h : x.run s = (.error f, s')) : (x >>= g).run s = (.error f, s') := by
  show ExceptT.bindCont g (x.run s).1 (x.run s).2 = _
  rw [h]
  rfl

theorem run_get {g : σ → ExceptT Fault (StateM σ) α} (s : σ) : (get >>= g).run s = (g s).run s := rfl

/-- Computations that leave the state as it is, one for each element of a list. -/
theorem run_mapM {xs : List α} {ys : List β} {g : α → ExceptT Fault (StateM σ) β} {s : σ}
    (h : List.Forall₂ (fun x y => (g x).run s = (.ok y, s)) xs ys) : (xs.mapM g).run s = (.ok ys, s) := by
  induction h with
  | nil => rfl
  | cons hx _ ih =>
    rw [List.mapM_cons, run_bind_ok hx, run_bind_ok ih]
    rfl

/-! ## 2. Regimes -/

/-- **What holds of every state, what a later one keeps of an earlier one, and what holds as long as
    nothing fails.** -/
structure Regime (σ : Type) where
  Holds : σ → Prop
  Later : σ → σ → Prop
  Whole : σ → Prop
  refl : ∀ s, Later s s
  trans : ∀ {s s' s''}, Later s s' → Later s' s'' → Later s s''

/-- **A computation that keeps to a regime**, whatever its outcome, and whose result has `Q`; only
    where `hang` holds does it walk without end. -/
def Regime.Allows (r : Regime σ) (hang : Prop) (s : σ) (x : ExceptT Fault (StateM σ) α)
    (Q : α → σ → Prop) : Prop :=
  r.Holds s → (r.Holds (x.run s).2 ∧ r.Later s (x.run s).2) ∧
    Gives hang (fun a => (r.Whole s → r.Whole (x.run s).2) ∧ Q a (x.run s).2) (x.run s).1

namespace Regime.Allows

variable {r : Regime σ} {hang : Prop} {s : σ} {P : α → σ → Prop} {Q : β → σ → Prop}

theorem pure {a : α} (h : r.Holds s → P a s) : r.Allows hang s (Pure.pure a) P :=
  fun hs => ⟨⟨hs, r.refl s⟩, id, h hs⟩

theorem throw {f : Fault} (hf : f = .endless → hang) :
    r.Allows hang s (throw f : ExceptT Fault (StateM σ) α) P :=
  fun hs => ⟨⟨hs, r.refl s⟩, hf⟩

theorem mono {x : ExceptT Fault (StateM σ) α} {P' : α → σ → Prop} (hx : r.Allows hang s x P)
    (h : ∀ a s', P a s' → P' a s') : r.Allows hang s x P' :=
  fun hs => ⟨(hx hs).1, (hx hs).2.mono fun a ha => ⟨ha.1, h a _ ha.2⟩⟩

/-- The state that the computation begins in is one of the regime. -/
theorem holds {x : ExceptT Fault (StateM σ) α} (h : r.Holds s → r.Allows hang s x P) :
    r.Allows hang s x P := fun hs => h hs hs

theorem branch {p : Prop} [Decidable p] {x y : ExceptT Fault (StateM σ) α}
    (hx : r.Allows hang s x P) (hy : r.Allows hang s y P) :
    r.Allows hang s (if p then x else y) P := by
  by_cases hp : p
  · rw [if_pos hp]
    exact hx
  · rw [if_neg hp]
    exact hy

theorem readState {g : σ → ExceptT Fault (StateM σ) β} (hg : r.Allows hang s (g s) Q) :
    r.Allows hang s (get >>= g) Q := hg

/-- **One computation after another.** -/
theorem bind {x : ExceptT Fault (StateM σ) α} {g : α → ExceptT Fault (StateM σ) β}
    (hx : r.Allows hang s x P)
    (hg : ∀ a s', r.Later s s' → P a s' → r.Allows hang s' (g a) Q) :
    r.Allows hang s (x >>= g) Q := by
  intro hs
  obtain ⟨⟨hholds, hlater⟩, hgives⟩ := hx hs
  rcases hr : x.run s with ⟨result, s'⟩
  rw [hr] at hholds hlater hgives
  cases result with
  | error f =>
    rw [run_bind_error hr]
    exact ⟨⟨hholds, hlater⟩, hgives⟩
  | ok a =>
    rw [run_bind_ok hr]
    obtain ⟨⟨hholds', hlater'⟩, hgives'⟩ := hg a s' hlater hgives.2 hholds
    refine ⟨⟨hholds', r.trans hlater hlater'⟩, hgives'.mono fun b hb => ⟨fun hw => ?_, hb.2⟩⟩
    exact hb.1 (hgives.1 hw)

/-- **One computation for each element of a list**, for a property of results that later states keep. -/
theorem mapM {xs : List α} {g : α → ExceptT Fault (StateM σ) β}
    (hmono : ∀ b s s', r.Later s s' → Q b s → Q b s')
    (hg : ∀ a ∈ xs, ∀ s', r.Later s s' → r.Allows hang s' (g a) Q) :
    r.Allows hang s (xs.mapM g) (fun bs s' => ∀ b ∈ bs, Q b s') := by
  induction xs generalizing s with
  | nil => exact .pure fun _ b hb => absurd hb List.not_mem_nil
  | cons a l ih =>
    rw [List.mapM_cons]
    refine (hg a List.mem_cons_self s (r.refl s)).bind fun b s' hfirst hb => ?_
    have hrest : ∀ x ∈ l, ∀ s'', r.Later s' s'' → r.Allows hang s'' (g x) Q :=
      fun x hx s'' h => hg x (List.mem_cons_of_mem a hx) s'' (r.trans hfirst h)
    refine (ih hrest).bind fun bs s'' hlater hbs => .pure ?_
    intro _ y hy
    rcases List.mem_cons.1 hy with rfl | hy
    · exact hmono _ _ _ hlater hb
    · exact hbs y hy

end Regime.Allows

/-! ## 3. Asked again -/

/-- **A computation that gives `a` in every later state**, and changes nothing there. -/
def Regime.Repeats (r : Regime σ) (x : ExceptT Fault (StateM σ) α) (a : α) (s : σ) : Prop :=
  ∀ s', r.Later s s' → r.Holds s' → x.run s' = (.ok a, s')

namespace Regime.Repeats

variable {r : Regime σ} {s s' : σ}

theorem pure (a : α) (s : σ) : r.Repeats (Pure.pure a) a s := fun _ _ _ => rfl

theorem later {x : ExceptT Fault (StateM σ) α} {a : α} (h : r.Repeats x a s) (hlater : r.Later s s') :
    r.Repeats x a s' :=
  fun s'' hlater' => h s'' (r.trans hlater hlater')

theorem bind {x : ExceptT Fault (StateM σ) α} {g : α → ExceptT Fault (StateM σ) β} {a : α} {b : β}
    (hx : r.Repeats x a s) (hg : r.Repeats (g a) b s) : r.Repeats (x >>= g) b s := by
  intro s' hlater hholds
  rw [run_bind_ok (hx s' hlater hholds)]
  exact hg s' hlater hholds

end Regime.Repeats

end ApiReference
