/-
  The reference fields of linked records.

  Each kind of record has its reference fields.  A field is read in one of four ways and checked
  against the ids of one table; a record that is linked holds in each of them what the raw one names.

  1. `named`, `References`  -- what raw references name, in each of the four ways;
  2. `ReferenceField`       -- the reference fields of each kind of record;
  3. `ReferenceField.Linked` -- fields that hold what is named and declared;
  4. `gives_linkType_linked` ... `gives_linkUnit_linked` -- every record that is linked has such fields.
-/
import ApiReference.Proofs.Facts.Declared

namespace ApiReference

namespace Link

/-! ## 1. Raw references -/

/-- **What a raw reference names**: `null` nothing, anything else the id that is its text. -/
def named : Value → Option String
  | .null => none
  | v => some v.text

/-- What a reference field holds. -/
inductive References where
  | one (id : Option String)
  | many (ids : List (Option String))
  | byName (ids : List (String × Option String))

/-- The ids among them. -/
def References.ids : References → List String
  | .one id => id.toList
  | .many ids => ids.filterMap id
  | .byName ids => ids.filterMap Prod.snd

/-- What several raw references name; one that is no list stands for itself. -/
def namedAll (v : Value) : List (Option String) :=
  if v.isTrue then
    match v with
    | .list ks => ks.map named
    | k => [named k]
  else []

def readOne (v : Value) : Option References := some (.one (named v))

def readMany (v : Value) : Option References := some (.many (namedAll v))

/-- **References by name** are a map, or a value that does not count as set. -/
def readByName : Value → Option References
  | .map es => some (.byName (es.map fun e => (e.1, named e.2)))
  | v => if v.isTrue then none else some (.byName [])

/-- The type that a parameter tag names. -/
def tagType : Value → Option (Option String)
  | .map es => some (named (Fields.get es "type"))
  | _ => none

/-- **The types of parameter tags**, which are a list of maps, or a value that does not count as set. -/
def readTags : Value → Option References
  | .list ts => (ts.mapM tagType).map .many
  | v => if v.isTrue then none else some (.many [])

/-! ## 2. Reference fields -/

/-- **A reference field of a record**: its key, the table it refers to, how it is read, and what the
    linked record holds in it. -/
structure ReferenceField (ρ : Type) where
  key : String
  table : Section
  read : Value → Option References
  held : ρ → References

namespace ReferenceField

variable {ρ σ : Type}

/-- A reference to one record of a table. -/
def one (text : σ → String) (table : Section) (key : String) (held : ρ → Option σ) :
    ReferenceField ρ :=
  ⟨key, table, readOne, fun a => .one ((held a).map text)⟩

/-- References to several records of a table. -/
def many (text : σ → String) (table : Section) (key : String) (held : ρ → List (Option σ)) :
    ReferenceField ρ :=
  ⟨key, table, readMany, fun a => .many ((held a).map (·.map text))⟩

/-- References to symbols, by name. -/
def symbolsByName (key : String) (held : ρ → List (String × Option SymbolId)) : ReferenceField ρ :=
  ⟨key, .symbols, readByName, fun a => .byName ((held a).map fun m => (m.1, m.2.map (·.text)))⟩

/-- The types of parameter tags. -/
def tagTypes (key : String) (held : ρ → List ParamTag) : ReferenceField ρ :=
  ⟨key, .types, readTags, fun a => .many ((held a).map fun p => p.type.map (·.text))⟩

def symbol : String → (ρ → Option SymbolId) → ReferenceField ρ := one (·.text) .symbols

def symbolList : String → (ρ → List (Option SymbolId)) → ReferenceField ρ := many (·.text) .symbols

def declaration : String → (ρ → Option DeclarationId) → ReferenceField ρ := one (·.text) .declarations

def declarationList : String → (ρ → List (Option DeclarationId)) → ReferenceField ρ :=
  many (·.text) .declarations

def signature : String → (ρ → Option SignatureId) → ReferenceField ρ := one (·.text) .signatures

def signatureList : String → (ρ → List (Option SignatureId)) → ReferenceField ρ :=
  many (·.text) .signatures

def type : String → (ρ → Option TypeId) → ReferenceField ρ := one (·.text) .types

def typeList : String → (ρ → List (Option TypeId)) → ReferenceField ρ := many (·.text) .types

end ReferenceField

open ReferenceField

/-- The reference fields of symbols. -/
def symbolFields : List (ReferenceField SymbolFacts) :=
  [symbol "parent" (·.parent), declarationList "declarations" (·.declarations),
   declaration "valueDeclaration" (·.valueDeclaration), symbolsByName "members" (·.members),
   symbolList "exports" (·.exports), type "type" (·.type), type "declaredType" (·.declaredType),
   symbol "aliasTarget" (·.aliasTarget)]

/-- The reference fields of declarations. -/
def declarationFields : List (ReferenceField DeclarationFacts) :=
  [signature "signature" (·.signature), typeList "implements" (·.implements),
   tagTypes "paramTags" (·.paramTags)]

/-- The reference fields of signatures. -/
def signatureFields : List (ReferenceField SignatureFacts) :=
  [symbolList "parameters" (·.parameters), type "returnType" (·.returnType),
   typeList "typeParameters" (·.typeParameters), declaration "declaration" (·.declaration)]

/-- The reference fields of types. -/
def typeFields : List (ReferenceField TypeFacts) :=
  [symbol "symbol" (·.symbol), symbol "aliasSymbol" (·.aliasSymbol),
   typeList "aliasTypeArguments" (·.aliasTypeArguments), typeList "typeArguments" (·.typeArguments),
   type "target" (·.target), typeList "types" (·.types), type "objectType" (·.objectType),
   type "indexType" (·.indexType), type "checkType" (·.checkType), type "extendsType" (·.extendsType),
   type "trueType" (·.trueType), type "falseType" (·.falseType), type "baseType" (·.baseType),
   typeList "baseTypes" (·.baseTypes), symbolList "properties" (·.properties),
   signatureList "callSignatures" (·.callSignatures),
   signatureList "constructSignatures" (·.constructSignatures), type "nonOptional" (·.nonOptional),
   type "constraint" (·.constraint), type "default" (·.default),
   typeList "typeParameters" (·.typeParameters)]

/-- The reference fields of units. -/
def unitFields : List (ReferenceField UnitFacts) := [symbol "symbol" (·.symbol)]

/-! ## 3. Linked fields -/

/-- The ids that a table declares. -/
def Declared.table (d : Declared) : Section → List String
  | .symbols => d.symbols
  | .declarations => d.declarations
  | .signatures => d.signatures
  | .types => d.types

variable {ρ : Type} (d : Declared) (es : Fields)

/-- **A linked field**: it holds what the raw one names, and each of the ids is declared. -/
structure ReferenceField.Linked (a : ρ) (r : ReferenceField ρ) : Prop where
  reads : r.read (es.get r.key) = some (r.held a)
  declared : ∀ i ∈ (r.held a).ids, i ∈ d.table r.table

theorem mem_ids_many {os : List (Option String)} {i : String} :
    i ∈ (References.many os).ids ↔ some i ∈ os := by
  show i ∈ os.filterMap id ↔ _
  rw [List.mem_filterMap]
  exact ⟨fun ⟨o, ho, hi⟩ => hi ▸ ho, fun h => ⟨_, h, rfl⟩⟩

theorem map_eq_of_forall₂ {α β : Type} {f : α → β} {xs : List α} {ys : List β}
    (h : xs.Forall₂ (fun a b => f a = b) ys) : xs.map f = ys := by
  induction h with
  | nil => rfl
  | cons hab _ ih => rw [List.map_cons, hab, ih]

/-- **A reference field** gives what it names, if that is declared. -/
theorem gives_reference_named (table : Section) (ids : List String) (v : Value) :
    Gives True (fun o => named v = o ∧ ∀ i ∈ o, i ∈ ids) (reference table ids v) := by
  refine (gives_reference table ids v).and_ok.mono fun o ⟨ho, hids⟩ => ⟨?_, hids⟩
  unfold reference at ho
  split at ho
  · cases ho
    rfl
  · rename_i hnull
    split at ho
    · cases ho
      cases v with
      | null => exact absurd rfl hnull
      | _ => rfl
    · cases ho

theorem gives_references_named (table : Section) (ids : List String) (v : Value) :
    Gives True (fun os => namedAll v = os ∧ ∀ o ∈ os, ∀ i ∈ o, i ∈ ids) (references table ids v) := by
  refine Gives.both ?_ (gives_references table ids v)
  unfold references namedAll
  by_cases hv : v.isTrue = true
  · rw [if_pos hv, if_pos hv]
    have hsingle : Gives True (fun os => [named v] = os) (do return [← reference table ids v]) :=
      (gives_reference_named table ids v).bind fun o ho => Gives.pure (by rw [ho.1])
    cases v with
    | list ks =>
      refine (Gives.forall₂ fun k _ => gives_reference_named table ids k).mono fun os hos => ?_
      exact map_eq_of_forall₂ (hos.imp fun k o ho => ho.1)
    | _ => exact hsingle
  · rw [if_neg hv, if_neg hv]
    exact rfl

section

variable {σ : Type} {mk : String → σ} {text : σ → String}

theorem map_text_map (h : ∀ s, text (mk s) = s) (o : Option String) : (o.map mk).map text = o := by
  cases o with
  | none => rfl
  | some s => exact congrArg some (h s)

theorem gives_one_named (h : ∀ s, text (mk s) = s) (table : Section) (ids : List String) (v : Value) :
    Gives True (fun o => named v = o.map text ∧ ∀ i ∈ o.map text, i ∈ ids)
      (do return (← reference table ids v).map mk) := by
  refine (gives_reference_named table ids v).bind fun o ho => Gives.pure ?_
  rw [map_text_map h]
  exact ho

theorem gives_many_named (h : ∀ s, text (mk s) = s) (table : Section) (ids : List String) (v : Value) :
    Gives True (fun os => namedAll v = os.map (·.map text) ∧ ∀ o ∈ os.map (·.map text), ∀ i ∈ o, i ∈ ids)
      (do return (← references table ids v).map (·.map mk)) := by
  refine (gives_references_named table ids v).bind fun os hos => Gives.pure ?_
  have hback : (os.map (·.map mk)).map (·.map text) = os := by
    rw [List.map_map]
    exact (List.map_congr_left fun o _ => map_text_map h o).trans (List.map_id _)
  rw [hback]
  exact hos

theorem gives_one_linked (h : ∀ s, text (mk s) = s) (table : Section) (key : String)
    (held : ρ → Option σ) :
    Gives True (fun o => ∀ a, held a = o → (one text table key held).Linked d es a)
      (do return (← reference table (d.table table) (es.get key)).map mk) := by
  refine (gives_one_named h _ _ _).mono fun o ⟨ho, hids⟩ a ha => ?_
  subst ha
  exact ⟨congrArg (fun o => some (References.one o)) ho, fun i hi => hids i (Option.mem_toList.1 hi)⟩

theorem gives_many_linked (h : ∀ s, text (mk s) = s) (table : Section) (key : String)
    (held : ρ → List (Option σ)) :
    Gives True (fun os => ∀ a, held a = os → (many text table key held).Linked d es a)
      (do return (← references table (d.table table) (es.get key)).map (·.map mk)) := by
  refine (gives_many_named h _ _ _).mono fun os ⟨hos, hids⟩ a ha => ?_
  subst ha
  exact ⟨congrArg (fun os => some (References.many os)) hos,
    fun i hi => hids _ (mem_ids_many.1 hi) i rfl⟩

end

section

variable (key : String)

theorem gives_symbol_linked (held : ρ → Option SymbolId) : Gives True
    (fun o => ∀ a, held a = o → (symbol key held).Linked d es a) (d.symbol (es.get key)) :=
  gives_one_linked d es (fun _ => rfl) .symbols key held

theorem gives_symbolList_linked (held : ρ → List (Option SymbolId)) : Gives True
    (fun o => ∀ a, held a = o → (symbolList key held).Linked d es a) (d.symbolList (es.get key)) :=
  gives_many_linked d es (fun _ => rfl) .symbols key held

theorem gives_declaration_linked (held : ρ → Option DeclarationId) : Gives True
    (fun o => ∀ a, held a = o → (declaration key held).Linked d es a) (d.declaration (es.get key)) :=
  gives_one_linked d es (fun _ => rfl) .declarations key held

theorem gives_declarationList_linked (held : ρ → List (Option DeclarationId)) : Gives True
    (fun o => ∀ a, held a = o → (declarationList key held).Linked d es a)
    (d.declarationList (es.get key)) :=
  gives_many_linked d es (fun _ => rfl) .declarations key held

theorem gives_signature_linked (held : ρ → Option SignatureId) : Gives True
    (fun o => ∀ a, held a = o → (signature key held).Linked d es a) (d.signature (es.get key)) :=
  gives_one_linked d es (fun _ => rfl) .signatures key held

theorem gives_signatureList_linked (held : ρ → List (Option SignatureId)) : Gives True
    (fun o => ∀ a, held a = o → (signatureList key held).Linked d es a) (d.signatureList (es.get key)) :=
  gives_many_linked d es (fun _ => rfl) .signatures key held

theorem gives_type_linked (held : ρ → Option TypeId) : Gives True
    (fun o => ∀ a, held a = o → (type key held).Linked d es a) (d.type (es.get key)) :=
  gives_one_linked d es (fun _ => rfl) .types key held

theorem gives_typeList_linked (held : ρ → List (Option TypeId)) : Gives True
    (fun o => ∀ a, held a = o → (typeList key held).Linked d es a) (d.typeList (es.get key)) :=
  gives_many_linked d es (fun _ => rfl) .types key held

end

/-! ## 4. Every record -/

/-- **Linking a type** links its fields. -/
theorem gives_linkType_linked :
    Gives True (fun t => ∀ r ∈ typeFields, r.Linked d es t) (linkType d es) := by
  unfold linkType
  refine (Gives.any _).bind fun flags _ => (Gives.any _).bind fun objectFlags _ => ?_
  refine (gives_symbol_linked d es _ TypeFacts.symbol).bind fun symbol hsymbol => ?_
  refine (gives_symbol_linked d es _ TypeFacts.aliasSymbol).bind fun aliasSymbol haliasSymbol => ?_
  refine (gives_typeList_linked d es _ TypeFacts.aliasTypeArguments).bind fun arguments harguments => ?_
  refine (gives_typeList_linked d es _ TypeFacts.typeArguments).bind
    fun typeArguments htypeArguments => ?_
  refine (gives_type_linked d es _ TypeFacts.target).bind fun target htarget => ?_
  refine (gives_typeList_linked d es _ TypeFacts.types).bind fun types htypes => ?_
  refine (Gives.any _).bind fun texts _ => ?_
  refine (gives_type_linked d es _ TypeFacts.objectType).bind fun objectType hobjectType => ?_
  refine (gives_type_linked d es _ TypeFacts.indexType).bind fun indexType hindexType => ?_
  refine (gives_type_linked d es _ TypeFacts.checkType).bind fun checkType hcheckType => ?_
  refine (gives_type_linked d es _ TypeFacts.extendsType).bind fun extendsType hextendsType => ?_
  refine (gives_type_linked d es _ TypeFacts.trueType).bind fun trueType htrueType => ?_
  refine (gives_type_linked d es _ TypeFacts.falseType).bind fun falseType hfalseType => ?_
  refine (gives_type_linked d es _ TypeFacts.baseType).bind fun baseType hbaseType => ?_
  refine (gives_typeList_linked d es _ TypeFacts.baseTypes).bind fun baseTypes hbaseTypes => ?_
  refine (gives_symbolList_linked d es _ TypeFacts.properties).bind fun properties hproperties => ?_
  refine (gives_signatureList_linked d es _ TypeFacts.callSignatures).bind fun calls hcalls => ?_
  refine (gives_signatureList_linked d es _ TypeFacts.constructSignatures).bind
    fun constructs hconstructs => ?_
  refine (gives_type_linked d es _ TypeFacts.nonOptional).bind fun nonOptional hnonOptional => ?_
  refine (gives_type_linked d es _ TypeFacts.constraint).bind fun constraint hconstraint => ?_
  refine (gives_type_linked d es _ TypeFacts.default).bind fun default hdefault => ?_
  refine (gives_typeList_linked d es _ TypeFacts.typeParameters).bind
    fun typeParameters htypeParameters => Gives.pure ?_
  simp only [typeFields, List.forall_mem_cons, List.not_mem_nil, false_imp_iff, implies_true, and_true]
  exact ⟨hsymbol _ rfl, haliasSymbol _ rfl, harguments _ rfl, htypeArguments _ rfl, htarget _ rfl,
    htypes _ rfl, hobjectType _ rfl, hindexType _ rfl, hcheckType _ rfl, hextendsType _ rfl,
    htrueType _ rfl, hfalseType _ rfl, hbaseType _ rfl, hbaseTypes _ rfl, hproperties _ rfl,
    hcalls _ rfl, hconstructs _ rfl, hnonOptional _ rfl, hconstraint _ rfl, hdefault _ rfl,
    htypeParameters _ rfl⟩

/-- **Linking a signature** links its fields. -/
theorem gives_linkSignature_linked :
    Gives True (fun s => ∀ r ∈ signatureFields, r.Linked d es s) (linkSignature d es) := by
  unfold linkSignature
  refine (gives_symbolList_linked d es _ SignatureFacts.parameters).bind fun parameters hparameters => ?_
  refine (gives_type_linked d es _ SignatureFacts.returnType).bind fun returnType hreturnType => ?_
  refine (gives_typeList_linked d es _ SignatureFacts.typeParameters).bind
    fun typeParameters htypeParameters => ?_
  refine (gives_declaration_linked d es _ SignatureFacts.declaration).bind
    fun declaration hdeclaration => (Gives.any _).bind fun tags _ => Gives.pure ?_
  simp only [signatureFields, List.forall_mem_cons, List.not_mem_nil, false_imp_iff, implies_true,
    and_true]
  exact ⟨hparameters _ rfl, hreturnType _ rfl, htypeParameters _ rfl, hdeclaration _ rfl⟩

theorem gives_type_named (v : Value) :
    Gives True (fun o => named v = o.map (·.text) ∧ ∀ i ∈ o.map (·.text), i ∈ d.types) (d.type v) :=
  gives_one_named (fun _ => rfl) .types d.types v

theorem gives_symbol_named (v : Value) :
    Gives True (fun o => named v = o.map (·.text) ∧ ∀ i ∈ o.map (·.text), i ∈ d.symbols) (d.symbol v) :=
  gives_one_named (fun _ => rfl) .symbols d.symbols v

/-- A parameter tag is a map, and its type is what it names. -/
theorem gives_linkParamTag_named (v : Value) :
    Gives True (fun p => tagType v = some (p.type.map (·.text)) ∧ ∀ i ∈ p.type.map (·.text), i ∈ d.types)
      (linkParamTag d v) := by
  unfold linkParamTag
  cases v with
  | map fs =>
    refine (Gives.any _).bind fun name _ => (Gives.any _).bind fun text _ => ?_
    refine (Gives.any _).bind fun optional _ => ?_
    show Gives True _ (d.type (Fields.get fs "type") >>= _)
    refine (gives_type_named d _).bind fun type ⟨htype, hids⟩ => Gives.pure ⟨?_, hids⟩
    exact congrArg some htype
  | _ => exact fun _ => trivial

/-- A text or a map in place of parameter tags is not linked, unless it is empty. -/
theorem gives_linkParamTags_of_texts {xs : List Value} (hne : xs ≠ []) (hxs : ∀ x ∈ xs, ∃ s, x = .str s)
    {P : List ParamTag → Prop} : Gives True P (xs.mapM (linkParamTag d)) := by
  obtain ⟨x, r, rfl⟩ := List.exists_cons_of_ne_nil hne
  obtain ⟨s, rfl⟩ := hxs x List.mem_cons_self
  rw [List.mapM_cons]
  exact fun _ => trivial

theorem gives_linkParamTags_named (v : Value) :
    Gives True (fun ps => readTags v = some (.many (ps.map fun p => p.type.map (·.text))) ∧
        ∀ p ∈ ps, ∀ i ∈ p.type.map (·.text), i ∈ d.types)
      (do (← v.elementsIfTrue).mapM (linkParamTag d)) := by
  refine Gives.both ?_ ((Gives.any _).bind fun xs _ => Gives.mapM fun x _ =>
    (gives_linkParamTag_named d x).mono fun p hp => hp.2)
  -- a list is linked entry by entry
  have hlist : ∀ ts : List Value, Gives True
      (fun ps => (ts.mapM tagType).map References.many =
        some (.many (ps.map fun p : ParamTag => p.type.map (·.text)))) (ts.mapM (linkParamTag d)) := by
    intro ts
    refine (Gives.forall₂ fun t _ => gives_linkParamTag_named d t).mono fun ps hps => ?_
    have htypes : ts.mapM tagType = some (ps.map fun p => p.type.map (·.text)) := by
      induction hps with
      | nil => rfl
      | cons hp _ ih =>
        rw [List.mapM_cons, hp.1, ih]
        rfl
    rw [htypes]
    rfl
  unfold Value.elementsIfTrue
  by_cases hv : v.isTrue = true
  · rw [if_pos hv]
    cases v with
    | list ts => exact hlist ts
    -- a text or a map that counts as set has entries, and they are texts
    | str s =>
      refine gives_linkParamTags_of_texts d (fun hnil => ?_) fun x hx => ?_
      · have hempty : s = "" := by simpa using hnil
        subst hempty
        cases hv
      · obtain ⟨c, -, rfl⟩ := List.mem_map.1 hx
        exact ⟨_, rfl⟩
    | map fs =>
      refine gives_linkParamTags_of_texts d (fun hnil => ?_) fun x hx => ?_
      · have hempty : fs = [] := List.map_eq_nil_iff.1 hnil
        subst hempty
        cases hv
      · obtain ⟨e, -, rfl⟩ := List.mem_map.1 hx
        exact ⟨_, rfl⟩
    | _ => exact fun _ => trivial
  · rw [if_neg hv]
    -- what does not count as set has no entries
    have hread : readTags v = some (.many []) := by
      cases v with
      | list ts =>
        cases ts with
        | nil => rfl
        | cons t ts => exact absurd rfl hv
      | null => rfl
      | _ => exact if_neg hv
    exact hread

theorem gives_paramTags_linked (key : String) (held : DeclarationFacts → List ParamTag) :
    Gives True (fun ps => ∀ a, held a = ps → (tagTypes key held).Linked d es a)
      (do (← (es.get key).elementsIfTrue).mapM (linkParamTag d)) := by
  refine (gives_linkParamTags_named d _).mono fun ps ⟨hps, hids⟩ a ha => ?_
  subst ha
  refine ⟨hps, fun i hi => ?_⟩
  obtain ⟨p, hp, htype⟩ := List.mem_map.1 (mem_ids_many.1 hi)
  exact hids p hp i htype

/-- **Linking a declaration** links its fields. -/
theorem gives_linkDeclaration_linked :
    Gives True (fun x => ∀ r ∈ declarationFields, r.Linked d es x) (linkDeclaration d es) := by
  unfold linkDeclaration
  refine (Gives.any _).bind fun modifiers _ => ?_
  refine (gives_signature_linked d es _ DeclarationFacts.signature).bind fun signature hsignature => ?_
  refine (gives_typeList_linked d es _ DeclarationFacts.implements).bind fun implements himplements => ?_
  refine Gives.onward (gives_paramTags_linked d es _ DeclarationFacts.paramTags)
    fun paramTags hparamTags => ?_
  refine (Gives.any _).bind fun commentLength _ => (Gives.any _).bind fun location _ => Gives.pure ?_
  simp only [declarationFields, List.forall_mem_cons, List.not_mem_nil, false_imp_iff, implies_true,
    and_true]
  exact ⟨hsignature _ rfl, himplements _ rfl, hparamTags _ rfl⟩

theorem gives_linkMembers_named (v : Value) :
    Gives True (fun ms => readByName v = some (.byName (ms.map fun m => (m.1, m.2.map (·.text)))) ∧
        ∀ m ∈ ms, ∀ i ∈ m.2.map (·.text), i ∈ d.symbols) (linkMembers d v) := by
  unfold linkMembers
  refine Gives.both ?_ ((Gives.any _).bind fun fs _ => Gives.mapM fun e _ =>
    (gives_symbol_named d e.2).bind fun s hs => Gives.pure hs.2)
  have hmap : ∀ fs : Fields, Gives True
      (fun ms : List (String × Option SymbolId) =>
        fs.map (fun e => (e.1, named e.2)) = ms.map fun m => (m.1, m.2.map (·.text)))
      (fs.mapM fun e : String × Value => do return (e.1, ← d.symbol e.2)) := by
    intro fs
    have hone : ∀ e ∈ fs, Gives True
        (fun m : String × Option SymbolId => (e.1, named e.2) = (m.1, m.2.map (·.text)))
        (do return (e.1, ← d.symbol e.2)) := fun e _ =>
      (gives_symbol_named d e.2).bind fun s hs => Gives.pure (congrArg (Prod.mk e.1) hs.1)
    refine (Gives.forall₂ hone).mono fun ms hms => ?_
    induction hms with
    | nil => rfl
    | cons hm _ ih =>
      rw [List.map_cons, List.map_cons, hm]
      exact congrArg _ (ih fun e he => hone e (List.mem_cons_of_mem _ he))
  unfold recordFields
  by_cases hv : v.isTrue = true
  · rw [if_pos hv]
    cases v with
    | map fs =>
      exact (hmap fs).mono fun ms hms => congrArg (fun ms => some (References.byName ms)) hms
    | _ => exact fun _ => trivial
  · rw [if_neg hv]
    have hread : readByName v = some (.byName []) := by
      cases v with
      | map fs =>
        cases fs with
        | nil => rfl
        | cons f fs => exact absurd rfl hv
      | null => rfl
      | _ => exact if_neg hv
    exact hread

theorem gives_members_linked (key : String) (held : SymbolFacts → List (String × Option SymbolId)) :
    Gives True (fun ms => ∀ a, held a = ms → (symbolsByName key held).Linked d es a)
      (linkMembers d (es.get key)) := by
  refine (gives_linkMembers_named d _).mono fun ms ⟨hms, hids⟩ a ha => ?_
  subst ha
  refine ⟨hms, fun i hi => ?_⟩
  obtain ⟨m, hm, hname⟩ := List.mem_filterMap.1 hi
  obtain ⟨m', hm', rfl⟩ := List.mem_map.1 hm
  exact hids m' hm' i hname

/-- **Linking a symbol** links its fields. -/
theorem gives_linkSymbol_linked (id : String) :
    Gives True (fun s => ∀ r ∈ symbolFields, r.Linked d es s) (linkSymbol d id es) := by
  unfold linkSymbol
  refine (Gives.any _).bind fun flags _ => ?_
  refine (gives_symbol_linked d es _ SymbolFacts.parent).bind fun parent hparent => ?_
  refine (gives_declarationList_linked d es _ SymbolFacts.declarations).bind
    fun declarations hdeclarations => ?_
  refine (gives_declaration_linked d es _ SymbolFacts.valueDeclaration).bind fun value hvalue => ?_
  refine (gives_members_linked d es _ SymbolFacts.members).bind fun members hmembers => ?_
  refine (gives_symbolList_linked d es _ SymbolFacts.exports).bind fun exports hexports => ?_
  refine (gives_type_linked d es _ SymbolFacts.type).bind fun type htype => ?_
  refine (gives_type_linked d es _ SymbolFacts.declaredType).bind fun declaredType hdeclaredType => ?_
  refine (gives_symbol_linked d es _ SymbolFacts.aliasTarget).bind fun aliasTarget haliasTarget => ?_
  refine (Gives.any _).bind fun tags _ => Gives.pure ?_
  simp only [symbolFields, List.forall_mem_cons, List.not_mem_nil, false_imp_iff, implies_true, and_true]
  exact ⟨hparent _ rfl, hdeclarations _ rfl, hvalue _ rfl, hmembers _ rfl, hexports _ rfl,
    htype _ rfl, hdeclaredType _ rfl, haliasTarget _ rfl⟩

/-- **Linking a unit** links its fields. -/
theorem gives_linkUnit_linked (raw : Value) :
    Gives True (fun u => ∃ fs, raw = .map fs ∧ ∀ r ∈ unitFields, r.Linked d fs u) (linkUnit d raw) := by
  unfold linkUnit
  cases raw with
  | map fs =>
    show Gives True _ (d.symbol (Fields.get fs "symbol") >>= _)
    refine (gives_symbol_linked d fs _ UnitFacts.symbol).bind fun symbol hsymbol => ?_
    refine (Gives.any _).bind fun tags _ => (Gives.any _).bind fun raw _ => ?_
    refine (Gives.any _).bind fun imports _ => Gives.pure ⟨fs, rfl, ?_⟩
    exact List.forall_mem_singleton.2 (hsymbol _ rfl)
  | _ => exact fun _ => trivial

end Link

end ApiReference
