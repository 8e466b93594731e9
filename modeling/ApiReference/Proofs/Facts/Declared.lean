/-
  Linked facts refer to declared records only.

  A request is made for a symbol or a type that some record of the facts mentions, and linking accepts
  a document only if every mention is declared.  So the keys that any build can ask for are the
  declared symbols and types, the missing symbol, the missing type and the error type; and a unit is
  asked for at its position, if it has a root.

  1. `SymbolKey`, `TypeKey`, `UnitKey` -- the keys that can be asked for;
  2. `Refers`        -- a record whose references are all declared;
  3. `Facts.Closed`  -- every record of the facts is such a record;
  4. `closed_of_link` -- linking gives closed facts.
-/
import ApiReference.Facts.Link
import ApiReference.Facts.Query
import ApiReference.Proofs.Outcome

namespace ApiReference

/-! ## 1. Keys -/

namespace Facts

variable (f : Facts)

/-- The ids of the declared symbols. -/
def symbolIds : List String := f.symbols.map Prod.fst

/-- The ids of the declared types. -/
def typeIds : List String := f.types.map Prod.fst

/-- **A symbol that can be asked for**: a declared one, or the missing one. -/
def SymbolKey (k : Option SymbolId) : Prop := ∀ s ∈ k, s.text ∈ f.symbolIds

/-- **A type that can be asked for**: a declared one, the error type, or the missing one. -/
def TypeKey (k : Option TypeRef) : Prop := ∀ t, k = some (.known t) → t.text ∈ f.typeIds

/-- **A unit that can be asked for**: one that has a root. -/
def UnitKey (i : Nat) : Prop := ∃ u, f.units[i]? = some u ∧ u.symbol.isSome = true

end Facts

/-! ## 2. Records whose references are declared -/

/-- References to symbols, and to types, that a table declares. -/
def SymbolsIn (ids : List String) (ks : List (Option SymbolId)) : Prop :=
  ∀ k ∈ ks, ∀ s ∈ k, s.text ∈ ids

def TypeIn (ids : List String) (k : Option TypeId) : Prop := ∀ t ∈ k, t.text ∈ ids

def TypesIn (ids : List String) (ks : List (Option TypeId)) : Prop := ∀ k ∈ ks, TypeIn ids k

/-- **A symbol whose references are declared.** -/
structure SymbolFacts.Refers (ss ts : List String) (s : SymbolFacts) : Prop where
  parent : ∀ p ∈ s.parent, p.text ∈ ss
  members : ∀ e ∈ s.members, ∀ m ∈ e.2, m.text ∈ ss
  exports : SymbolsIn ss s.exports
  type : TypeIn ts s.type
  declaredType : TypeIn ts s.declaredType
  aliasTarget : ∀ a ∈ s.aliasTarget, a.text ∈ ss

/-- **A declaration whose references are declared.** -/
structure DeclarationFacts.Refers (ts : List String) (d : DeclarationFacts) : Prop where
  implements : TypesIn ts d.implements
  paramTags : ∀ p ∈ d.paramTags, TypeIn ts p.type

/-- **A signature whose references are declared.** -/
structure SignatureFacts.Refers (ss ts : List String) (s : SignatureFacts) : Prop where
  parameters : SymbolsIn ss s.parameters
  returnType : TypeIn ts s.returnType
  typeParameters : TypesIn ts s.typeParameters

/-- **A type whose references are declared.** -/
structure TypeFacts.Refers (ss ts : List String) (t : TypeFacts) : Prop where
  symbol : ∀ s ∈ t.symbol, s.text ∈ ss
  aliasSymbol : ∀ s ∈ t.aliasSymbol, s.text ∈ ss
  aliasTypeArguments : TypesIn ts t.aliasTypeArguments
  typeArguments : TypesIn ts t.typeArguments
  target : TypeIn ts t.target
  types : TypesIn ts t.types
  objectType : TypeIn ts t.objectType
  indexType : TypeIn ts t.indexType
  checkType : TypeIn ts t.checkType
  extendsType : TypeIn ts t.extendsType
  trueType : TypeIn ts t.trueType
  falseType : TypeIn ts t.falseType
  baseType : TypeIn ts t.baseType
  baseTypes : TypesIn ts t.baseTypes
  properties : SymbolsIn ss t.properties
  nonOptional : TypeIn ts t.nonOptional
  constraint : TypeIn ts t.constraint
  default : TypeIn ts t.default
  typeParameters : TypesIn ts t.typeParameters

theorem SymbolsIn.nil {ids : List String} : SymbolsIn ids [] :=
  fun _ h => absurd h List.not_mem_nil

theorem TypesIn.nil {ids : List String} : TypesIn ids [] := fun _ h => absurd h List.not_mem_nil

theorem TypeIn.none {ids : List String} : TypeIn ids none := fun _ h => nomatch h

/-- A record without references has none to declare. -/
theorem SymbolFacts.refers_empty {ss ts : List String} : ({} : SymbolFacts).Refers ss ts where
  parent := fun _ h => nomatch h
  members := fun _ h => absurd h List.not_mem_nil
  exports := .nil
  type := .none
  declaredType := .none
  aliasTarget := fun _ h => nomatch h

theorem DeclarationFacts.refers_empty {ts : List String} : ({} : DeclarationFacts).Refers ts where
  implements := .nil
  paramTags := fun _ h => absurd h List.not_mem_nil

theorem SignatureFacts.refers_empty {ss ts : List String} :
    ({} : SignatureFacts).Refers ss ts where
  parameters := .nil
  returnType := .none
  typeParameters := .nil

/-- What a type says of itself apart from references does not matter. -/
theorem TypeFacts.refers_of_flags {ss ts : List String} (flags : TypeFlags) (name : String) :
    ({ flags, intrinsicName := name } : TypeFacts).Refers ss ts where
  symbol := fun _ h => nomatch h
  aliasSymbol := fun _ h => nomatch h
  aliasTypeArguments := .nil
  typeArguments := .nil
  target := .none
  types := .nil
  objectType := .none
  indexType := .none
  checkType := .none
  extendsType := .none
  trueType := .none
  falseType := .none
  baseType := .none
  baseTypes := .nil
  properties := .nil
  nonOptional := .none
  constraint := .none
  default := .none
  typeParameters := .nil

/-! ## 3. Closed facts -/

/-- **Every reference of every record is declared.** -/
structure Facts.Closed (f : Facts) : Prop where
  symbol : ∀ s, (f.symbol s).Refers f.symbolIds f.typeIds
  declaration : ∀ d, (f.declaration d).Refers f.typeIds
  signature : ∀ s, (f.signature s).Refers f.symbolIds f.typeIds
  type : ∀ t, (f.type t).Refers f.symbolIds f.typeIds
  unit : ∀ u ∈ f.units, ∀ s ∈ u.symbol, s.text ∈ f.symbolIds

/-! ## 4. Linking -/

namespace Link

/-- What a reference field gives is among the declared ids. -/
theorem gives_reference (table : Section) (ids : List String) (v : Value) :
    Gives True (fun o => ∀ s ∈ o, s ∈ ids) (reference table ids v) := by
  unfold reference
  split
  · exact fun s hs => nomatch hs
  · split
    · rename_i hc
      intro s hs
      cases hs
      simpa using hc
    · exact fun _ => trivial

theorem gives_references (table : Section) (ids : List String) (v : Value) :
    Gives True (fun os => ∀ o ∈ os, ∀ s ∈ o, s ∈ ids) (references table ids v) := by
  unfold references
  split
  · split
    · exact Gives.mapM fun k _ => gives_reference table ids k
    · refine (gives_reference table ids _).bind fun o ho => Gives.pure ?_
      intro x hx
      rw [List.mem_singleton.1 hx]
      exact ho
  · exact fun o ho => absurd ho List.not_mem_nil

/-- Made into an id, it is the id of a declared record. -/
theorem gives_idOf {ι : Type} {id : String → ι} {text : ι → String} (table : Section) (ids : List String)
    (v : Value) (htext : ∀ s, text (id s) = s) :
    Gives True (fun o => ∀ i ∈ o, text i ∈ ids) (do return (← reference table ids v).map id) := by
  refine (gives_reference table ids v).bind fun o ho => Gives.pure ?_
  intro i hi
  obtain ⟨s, hs, rfl⟩ := Option.map_eq_some_iff.1 hi
  rw [htext]
  exact ho s hs

theorem gives_idsOf {ι : Type} {id : String → ι} {text : ι → String} (table : Section) (ids : List String)
    (v : Value) (htext : ∀ s, text (id s) = s) :
    Gives True (fun os => ∀ o ∈ os, ∀ i ∈ o, text i ∈ ids)
      (do return (← references table ids v).map (·.map id)) := by
  refine (gives_references table ids v).bind fun os hos => Gives.pure ?_
  intro k hk i hi
  obtain ⟨o, ho, rfl⟩ := List.mem_map.1 hk
  obtain ⟨s, hs, rfl⟩ := Option.map_eq_some_iff.1 hi
  rw [htext]
  exact hos o ho s hs

namespace Declared

variable (d : Declared) (v : Value)

theorem gives_symbol : Gives True (fun o => ∀ s ∈ o, s.text ∈ d.symbols) (d.symbol v) :=
  gives_idOf .symbols d.symbols v fun _ => rfl

theorem gives_symbolList : Gives True (SymbolsIn d.symbols) (d.symbolList v) :=
  gives_idsOf .symbols d.symbols v fun _ => rfl

theorem gives_type : Gives True (TypeIn d.types) (d.type v) :=
  gives_idOf .types d.types v fun _ => rfl

theorem gives_typeList : Gives True (TypesIn d.types) (d.typeList v) :=
  gives_idsOf .types d.types v fun _ => rfl

end Declared

theorem gives_linkType (d : Declared) (es : Fields) :
    Gives True (TypeFacts.Refers d.symbols d.types) (linkType d es) := by
  unfold linkType
  refine (Gives.any _).bind fun flags _ => (Gives.any _).bind fun objectFlags _ => ?_
  refine (d.gives_symbol _).bind fun symbol hsymbol => ?_
  refine (d.gives_symbol _).bind fun aliasSymbol haliasSymbol => ?_
  refine (d.gives_typeList _).bind fun aliasTypeArguments haliasTypeArguments => ?_
  refine (d.gives_typeList _).bind fun typeArguments htypeArguments => ?_
  refine (d.gives_type _).bind fun target htarget => ?_
  refine (d.gives_typeList _).bind fun types htypes => ?_
  refine (Gives.any _).bind fun texts _ => ?_
  refine (d.gives_type _).bind fun objectType hobjectType => ?_
  refine (d.gives_type _).bind fun indexType hindexType => ?_
  refine (d.gives_type _).bind fun checkType hcheckType => ?_
  refine (d.gives_type _).bind fun extendsType hextendsType => ?_
  refine (d.gives_type _).bind fun trueType htrueType => ?_
  refine (d.gives_type _).bind fun falseType hfalseType => ?_
  refine (d.gives_type _).bind fun baseType hbaseType => ?_
  refine (d.gives_typeList _).bind fun baseTypes hbaseTypes => ?_
  refine (d.gives_symbolList _).bind fun properties hproperties => ?_
  refine (Gives.any _).bind fun calls _ => (Gives.any _).bind fun constructs _ => ?_
  refine (d.gives_type _).bind fun nonOptional hnonOptional => ?_
  refine (d.gives_type _).bind fun constraint hconstraint => ?_
  refine (d.gives_type _).bind fun default hdefault => ?_
  refine (d.gives_typeList _).bind fun typeParameters htypeParameters => ?_
  exact Gives.pure ⟨hsymbol, haliasSymbol, haliasTypeArguments, htypeArguments, htarget, htypes,
    hobjectType, hindexType, hcheckType, hextendsType, htrueType, hfalseType, hbaseType, hbaseTypes,
    hproperties, hnonOptional, hconstraint, hdefault, htypeParameters⟩

theorem gives_linkParamTag (d : Declared) (v : Value) :
    Gives True (fun p => TypeIn d.types p.type) (linkParamTag d v) := by
  unfold linkParamTag
  refine (Gives.any _).bind fun name _ => (Gives.any _).bind fun text _ => ?_
  refine (Gives.any _).bind fun optional _ => (Gives.any _).bind fun raw _ => ?_
  exact (d.gives_type raw).bind fun type htype => Gives.pure htype

theorem gives_linkDeclaration (d : Declared) (es : Fields) :
    Gives True (DeclarationFacts.Refers d.types) (linkDeclaration d es) := by
  unfold linkDeclaration
  refine (Gives.any _).bind fun modifiers _ => (Gives.any _).bind fun signature _ => ?_
  refine (d.gives_typeList _).bind fun implements himplements => ?_
  refine (Gives.any _).bind fun raw _ => ?_
  refine (Gives.mapM fun v _ => gives_linkParamTag d v).bind fun paramTags hparamTags => ?_
  refine (Gives.any _).bind fun commentLength _ => (Gives.any _).bind fun location _ => ?_
  exact Gives.pure ⟨himplements, hparamTags⟩

theorem gives_linkSignature (d : Declared) (es : Fields) :
    Gives True (SignatureFacts.Refers d.symbols d.types) (linkSignature d es) := by
  unfold linkSignature
  refine (d.gives_symbolList _).bind fun parameters hparameters => ?_
  refine (d.gives_type _).bind fun returnType hreturnType => ?_
  refine (d.gives_typeList _).bind fun typeParameters htypeParameters => ?_
  refine (Gives.any _).bind fun declaration _ => (Gives.any _).bind fun tags _ => ?_
  exact Gives.pure ⟨hparameters, hreturnType, htypeParameters⟩

theorem gives_linkMembers (d : Declared) (v : Value) :
    Gives True (fun ms => ∀ e ∈ ms, ∀ m ∈ e.2, m.text ∈ d.symbols) (linkMembers d v) := by
  unfold linkMembers
  refine (Gives.any _).bind fun es _ => ?_
  refine Gives.mapM fun e _ => ?_
  exact (d.gives_symbol e.2).bind fun s hs => Gives.pure hs

theorem gives_linkSymbol (d : Declared) (id : String) (es : Fields) :
    Gives True (SymbolFacts.Refers d.symbols d.types) (linkSymbol d id es) := by
  unfold linkSymbol
  refine (Gives.any _).bind fun flags _ => ?_
  refine (d.gives_symbol _).bind fun parent hparent => ?_
  refine (Gives.any _).bind fun declarations _ => (Gives.any _).bind fun valueDeclaration _ => ?_
  refine (gives_linkMembers d _).bind fun members hmembers => ?_
  refine (d.gives_symbolList _).bind fun exports hexports => ?_
  refine (d.gives_type _).bind fun type htype => ?_
  refine (d.gives_type _).bind fun declaredType hdeclaredType => ?_
  refine (d.gives_symbol _).bind fun aliasTarget haliasTarget => ?_
  refine (Gives.any _).bind fun tags _ => ?_
  exact Gives.pure ⟨hparent, hmembers, hexports, htype, hdeclaredType, haliasTarget⟩

theorem gives_linkUnit (d : Declared) (raw : Value) :
    Gives True (fun u => ∀ s ∈ u.symbol, s.text ∈ d.symbols) (linkUnit d raw) := by
  unfold linkUnit
  refine (Gives.any _).bind fun es _ => ?_
  refine (d.gives_symbol _).bind fun symbol hsymbol => ?_
  refine (Gives.any _).bind fun tags _ => (Gives.any _).bind fun raw _ => ?_
  exact (Gives.any _).bind fun imports _ => Gives.pure hsymbol

/-- The records of a section stand under its keys, and each is what linking makes of it. -/
theorem gives_linkSection {α : Type} {v : Value} {link : String → Fields → Except Fault α}
    {P : α → Prop} (hlink : ∀ id es, Gives True P (link id es)) :
    Gives True (fun xs => (∃ es, v = .map es ∧ xs.map Prod.fst = es.map Prod.fst) ∧
      ∀ x ∈ xs, P x.2) (linkSection v link) := by
  unfold linkSection
  cases v with
  | map es =>
    show Gives True _ (es.mapM _)
    have hkeys : ∀ es : Fields, Gives True (fun xs => xs.map Prod.fst = es.map Prod.fst ∧
        ∀ x ∈ xs, P x.2) (es.mapM fun e : String × Value => do
          return (e.1, ← link e.1 (← recordFields e.2))) := by
      intro es
      induction es with
      | nil => exact ⟨rfl, fun x hx => absurd hx List.not_mem_nil⟩
      | cons e r ih =>
        rw [List.mapM_cons]
        have hhead : Gives True (fun x : String × α => x.1 = e.1 ∧ P x.2)
            (do return (e.1, ← link e.1 (← recordFields e.2))) := by
          refine (Gives.any _).bind fun fields _ => ?_
          exact (hlink e.1 fields).bind fun a ha => Gives.pure ⟨rfl, ha⟩
        refine hhead.bind fun x hx => ih.bind fun xs hxs => Gives.pure ⟨?_, ?_⟩
        · rw [List.map_cons, List.map_cons, hx.1, hxs.1]
        · intro y hy
          rcases List.mem_cons.1 hy with rfl | hy
          · exact hx.2
          · exact hxs.2 y hy
    exact (hkeys es).mono fun xs hxs => ⟨⟨es, rfl, hxs.1⟩, hxs.2⟩
  | _ => exact fun _ => trivial

/-- The keys that a section declares are those under which its records stand. -/
theorem sectionKeys_map {es : List (String × Value)} :
    sectionKeys (.map es) = .ok (es.map Prod.fst) := by
  show (es.map fun e => Value.str e.1).foldrM _ [] = _
  induction es with
  | nil => rfl
  | cons e r ih =>
    rw [List.map_cons, List.foldrM_cons, ih]
    rfl

end Link

theorem lookup_mem {α : Type} {id : String} {a : α} {xs : List (String × α)}
    (h : xs.lookup id = some a) : (id, a) ∈ xs := by
  induction xs with
  | nil => simp at h
  | cons x r ih =>
    obtain ⟨k, b⟩ := x
    rw [List.lookup_cons] at h
    split at h
    · rename_i he
      cases h
      rw [eq_of_beq he]
      exact List.mem_cons_self
    · exact List.mem_cons_of_mem _ (ih h)

/-- What a table holds under an id, or else the empty record, is as good as all its records. -/
theorem getD_lookup {α : Type} {P : α → Prop} {xs : List (String × α)} (hxs : ∀ x ∈ xs, P x.2)
    (id : String) {a : α} (ha : P a) : P ((xs.lookup id).getD a) := by
  cases h : xs.lookup id with
  | none => exact ha
  | some b => exact hxs _ (lookup_mem h)

/-- The ids of a section agree with the ids that its linked records stand under. -/
theorem ids_of_section {α : Type} {v : Value} {ids : List String} {xs : List (String × α)}
    (hids : Link.sectionKeys v = .ok ids)
    (hxs : ∃ es, v = .map es ∧ xs.map Prod.fst = es.map Prod.fst) : xs.map Prod.fst = ids := by
  obtain ⟨es, rfl, hkeys⟩ := hxs
  rw [Link.sectionKeys_map] at hids
  cases hids
  exact hkeys

open Link in
/-- **Linking gives closed facts.** -/
theorem gives_link (doc : Value) : Gives True Facts.Closed (Facts.link doc) := by
  unfold Facts.link
  refine (Gives.any _).bind fun fields _ => ?_
  -- the ids come from the keys of the sections, so each table is read against its own keys
  have hkeys : ∀ v : Value, Gives True (fun ids => sectionKeys v = .ok ids) (sectionKeys v) := by
    intro v
    cases h : sectionKeys v with
    | ok ids => rfl
    | error f => exact fun _ => trivial
  refine (hkeys _).bind fun symbolIds hsymbolIds => (Gives.any _).bind fun declarationIds _ => ?_
  refine (Gives.any _).bind fun signatureIds _ => (hkeys _).bind fun typeIds htypeIds => ?_
  refine (gives_linkSection fun _ es => gives_linkType _ es).bind fun types htypes => ?_
  refine (gives_linkSection fun _ es => gives_linkDeclaration _ es).bind
    fun declarations hdeclarations => ?_
  refine (gives_linkSection fun _ es => gives_linkSignature _ es).bind
    fun signatures hsignatures => ?_
  refine (gives_linkSection fun id es => gives_linkSymbol _ id es).bind fun symbols hsymbols => ?_
  refine (Gives.any _).bind fun raw _ => ?_
  refine (Gives.mapM fun v _ => gives_linkUnit _ v).bind fun units hunits => Gives.pure ?_
  have hs : symbols.map Prod.fst = symbolIds := ids_of_section hsymbolIds hsymbols.1
  have ht : types.map Prod.fst = typeIds := ids_of_section htypeIds htypes.1
  subst hs ht
  refine ⟨fun s => ?_, fun d => ?_, fun s => ?_, fun t => ?_, hunits⟩
  · exact getD_lookup hsymbols.2 _ SymbolFacts.refers_empty
  · exact getD_lookup hdeclarations.2 _ DeclarationFacts.refers_empty
  · exact getD_lookup hsignatures.2 _ SignatureFacts.refers_empty
  · cases t with
    | known t => exact getD_lookup htypes.2 _ (TypeFacts.refers_of_flags ∅ "")
    | error => exact TypeFacts.refers_of_flags _ _

theorem closed_of_link {doc : Value} {f : Facts} (h : Facts.link doc = .ok f) : f.Closed :=
  (gives_link doc).of_ok h

end ApiReference
