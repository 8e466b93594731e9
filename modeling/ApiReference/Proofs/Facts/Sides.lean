/-
  The symbols that a class lists, read off the facts.

  On its instance side a class lists the properties of one type: the one it declares, else what its
  first construct signature gives.  The constructor and the call signature of that type come first, its
  index signature comes last.  On its static side it lists the properties of its own type, the prototype
  left out.

  1. `Facts.constructorOf`, `Context.instanceSymbols`, `Context.staticSymbols`;
  2. the same from the answers that a filling gets one by one.
-/
import ApiReference.Build.Classes

namespace ApiReference

/-! ## 1. The sides of a class -/

/-- The constructor of a type, which has either of two names. -/
def Facts.constructorOf (f : Facts) (t : TypeRef) : Except Fault (Option SymbolId) := do
  match ← f.lookupMember (some t) Facts.constructorName with
  | some s => return some s
  | none => f.lookupMember (some t) Facts.newName

namespace Context

variable (cx : Context)

/-- The type whose members stand on the instance side of a class. -/
def instanceType (symbol : SymbolId) : Except Fault (Option TypeRef) :=
  Build.instanceType cx symbol (cx.facts.type (cx.facts.typeOfSymbol symbol)).constructSignatures

/-- **What a class lists on its instance side**, before it is sorted. -/
def instanceSymbols (symbol : SymbolId) : Except Fault (List SymbolId) := do
  match ← cx.instanceType symbol with
  | none => return []
  | some t =>
    let constructor ← cx.facts.constructorOf t
    let call ← cx.facts.lookupMember (some t) Facts.callName
    let properties ← (← cx.facts.propertiesOf (some t)).mapM present
    let index ← cx.facts.lookupMember (some t) Facts.indexName
    return constructor.toList ++ call.toList ++ properties ++ index.toList

/-- **What a class lists on its static side.** -/
def staticSymbols (symbol : SymbolId) : Except Fault (List SymbolId) := do
  let properties ← (← cx.facts.propertiesOf (some (cx.facts.typeOfSymbol symbol))).mapM present
  return properties.filter fun p => !(cx.facts.symbol p).flags.meets SymbolFlags.prototypes

/-! ## 2. From single answers -/

variable {cx} {symbol : SymbolId}

theorem instanceSymbols_none (hnone : cx.instanceType symbol = .ok none) :
    cx.instanceSymbols symbol = .ok [] := by
  unfold instanceSymbols
  rw [hnone]
  rfl

theorem instanceSymbols_some {t : TypeRef} {constructor call index : Option SymbolId}
    {properties : List (Option SymbolId)} {ps : List SymbolId}
    (htype : cx.instanceType symbol = .ok (some t))
    (hconstructor : cx.facts.constructorOf t = .ok constructor)
    (hcall : cx.facts.lookupMember (some t) Facts.callName = .ok call)
    (hproperties : cx.facts.propertiesOf (some t) = .ok properties)
    (hps : properties.mapM present = .ok ps)
    (hindex : cx.facts.lookupMember (some t) Facts.indexName = .ok index) :
    cx.instanceSymbols symbol =
      .ok (constructor.toList ++ call.toList ++ ps ++ index.toList) := by
  simp [instanceSymbols, htype, hconstructor, hcall, hproperties, hps, hindex, bind, Except.bind, pure,
    Except.pure]

theorem staticSymbols_eq {properties : List (Option SymbolId)} {ps : List SymbolId}
    (hproperties : cx.facts.propertiesOf (some (cx.facts.typeOfSymbol symbol)) = .ok properties)
    (hps : properties.mapM present = .ok ps) : cx.staticSymbols symbol =
      .ok (ps.filter fun p => !(cx.facts.symbol p).flags.meets SymbolFlags.prototypes) := by
  simp [staticSymbols, hproperties, hps, bind, Except.bind, pure, Except.pure]

end Context

/-- One answer more. -/
theorem mapM_present_cons {α : Type} {o : Option α} {os : List (Option α)} {a : α} {as : List α}
    (ha : present o = .ok a) (has : os.mapM present = .ok as) :
    (o :: os).mapM present = .ok (a :: as) := by
  rw [List.mapM_cons, ha, has]
  rfl

end ApiReference
