/-
  Walks along base types in a build.

  A build walks along base types as deep as the call stack of its host holds.  A walk that the stack
  holds gives what the facts say, and one that it does not hold ends in the same fault as one without
  end.

  1. `Context.WalksFit`  -- no walk is without end, and the call stack holds them all;
  2. the properties of a type and its members by name.
-/
import ApiReference.Build.Classes
import ApiReference.Proofs.Facts.Sides
import ApiReference.Proofs.Facts.Walks

namespace ApiReference

/-! ## 1. Walks that the call stack holds -/

namespace Context

variable (cx : Context)

/-- **The walks of a build fit**: no class or interface is its own ancestor, and the call stack holds a
    walk along all base types there are. -/
def WalksFit : Prop := cx.facts.WalksFit cx.host.steps

variable {cx}

/-- Walks that fit the call stack fit the depth of a build. -/
theorem WalksFit.depth (h : cx.WalksFit) : cx.facts.WalksFit cx.walkDepth :=
  ⟨h.1, Nat.le_min.2 ⟨h.2, Nat.le_refl _⟩⟩

/-! ## 2. Properties and members by name -/

/-- **The properties that a build finds** are those of the facts. -/
theorem propertiesOf_eq_ok {t : Option TypeRef} {ps : List (Option SymbolId)}
    (h : cx.propertiesOf t = .ok ps) : cx.facts.propertiesOf t = .ok ps :=
  Facts.propertiesWithin_of_le (Nat.min_le_right ..) h

/-- **A member by name that a build finds** is that of the facts, and so is one that it misses. -/
theorem lookupMember_eq_ok {t : Option TypeRef} {name : String} {o : Option SymbolId}
    (h : cx.lookupMember t name = .ok o) : cx.facts.lookupMember t name = .ok o :=
  Facts.lookupWithin_of_le (Nat.min_le_right ..) h

variable (hf : cx.facts.Closed)
include hf

theorem gives_propertiesOf (t : Option TypeRef) : Gives (¬ cx.WalksFit)
    (fun ps => cx.facts.propertiesOf t = .ok ps ∧ ∀ p ∈ ps, cx.facts.SymbolKey p)
    (cx.propertiesOf t) :=
  ((Facts.gives_propertiesWithin hf cx.walkDepth t).weaken (mt WalksFit.depth)).and_ok.mono
    fun _ h => ⟨propertiesOf_eq_ok h.1, h.2⟩

theorem gives_lookupMember (t : Option TypeRef) (name : String) : Gives (¬ cx.WalksFit)
    (fun o => cx.facts.lookupMember t name = .ok o ∧ cx.facts.SymbolKey o) (cx.lookupMember t name) :=
  ((Facts.gives_lookupWithin hf cx.walkDepth t name).weaken (mt WalksFit.depth)).and_ok.mono
    fun _ h => ⟨lookupMember_eq_ok h.1, h.2⟩

end Context

theorem Build.gives_constructorOf {cx : Context} (hf : cx.facts.Closed) (t : TypeRef) :
    Gives (¬ cx.WalksFit) (fun o => cx.facts.constructorOf t = .ok o ∧ cx.facts.SymbolKey o)
      (Build.constructorOf cx t) := by
  unfold Build.constructorOf Facts.constructorOf
  refine (Context.gives_lookupMember hf (some t) _).bind fun o ho => ?_
  rw [ho.1]
  cases o with
  | some s => exact Gives.pure ⟨rfl, ho.2⟩
  | none => exact Context.gives_lookupMember hf (some t) _

end ApiReference
