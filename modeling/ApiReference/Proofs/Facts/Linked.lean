/-
  What linking makes of a document.

  A document is linked table by table, and the crux is that linking a record asks the tables for
  nothing but which ids are declared: so a linked record depends on its raw one and on no order, and
  ids may be used before they are declared.

  1. `Facts.table`, `linkRecord` -- the tables, and their records;
  2. `link_eq_ok`                -- a document is linked table by table;
  3. `linkRecord_congr`, `lookup_perm` -- what does not depend on order;
  4. `link_complete`             -- documents that are accepted, refused and reordered;
  5. `link_complete_loop`        -- a document with a cycle.
-/
import ApiReference.Proofs.Facts.References
import Mathlib.Data.List.Perm.Basic

namespace ApiReference

/-! ## 1. Tables -/

/-- The records of a table. -/
abbrev Section.Record : Section → Type
  | .symbols => SymbolFacts
  | .declarations => DeclarationFacts
  | .signatures => SignatureFacts
  | .types => TypeFacts

/-- The linked records of a table. -/
def Facts.table (f : Facts) : (t : Section) → List (String × t.Record)
  | .symbols => f.symbols
  | .declarations => f.declarations
  | .signatures => f.signatures
  | .types => f.types

namespace Link

/-- The reference fields of the records of a table. -/
def fieldsOf : (t : Section) → List (ReferenceField t.Record)
  | .symbols => symbolFields
  | .declarations => declarationFields
  | .signatures => signatureFields
  | .types => typeFields

/-- Linking one record of a table. -/
def linkRecord (d : Declared) : (t : Section) → String → Fields → Except Fault t.Record
  | .symbols => linkSymbol d
  | .declarations => fun _ => linkDeclaration d
  | .signatures => fun _ => linkSignature d
  | .types => fun _ => linkType d

theorem gives_linkRecord_linked (d : Declared) (es : Fields) (t : Section) (id : String) :
    Gives True (fun a => ∀ r ∈ fieldsOf t, r.Linked d es a) (linkRecord d t id es) := by
  cases t with
  | symbols => exact gives_linkSymbol_linked d es id
  | declarations => exact gives_linkDeclaration_linked d es
  | signatures => exact gives_linkSignature_linked d es
  | types => exact gives_linkType_linked d es

/-! ## 2. Documents -/

/-- A table of a document, empty where it is not written. -/
def tableOf (doc : Fields) (t : Section) : Value := (Value.lookup t.key doc).getD (.map [])

/-- The units of a document, none where they are not written. -/
def unitsOf (doc : Fields) : Value := (Value.lookup "units" doc).getD (.list [])

/-- A section added where it is missing. -/
def added (key : String) (v : Value) (doc : Fields) : Fields :=
  match Value.lookup key doc with
  | some _ => doc
  | none => doc ++ [(key, v)]

theorem withSections_eq (doc : Fields) :
    withSections doc = added "types" (.map []) (added "signatures" (.map [])
      (added "declarations" (.map []) (added "symbols" (.map []) (added "units" (.list []) doc)))) := rfl

theorem lookup_added (doc : Fields) (key k : String) (v : Value) :
    Value.lookup k (added key v doc) =
      if k = key then some ((Value.lookup key doc).getD v) else Value.lookup k doc := by
  have happend : Value.lookup k (doc ++ [(key, v)]) =
      (Value.lookup k doc).or (if key = k then some v else none) := by
    induction doc with
    | nil => rfl
    | cons e r ih =>
      obtain ⟨k', w⟩ := e
      by_cases hk : k' = k
      · simp [Value.lookup, hk]
      · simp only [List.cons_append, Value.lookup, hk, if_false, ih]
  unfold added
  cases hkey : Value.lookup key doc with
  | some w =>
    by_cases hk : k = key
    · subst hk
      simpa using hkey
    · simp [hk]
  | none =>
    by_cases hk : k = key
    · subst hk
      simp [happend, hkey]
    · simp [hk, happend, Ne.symm hk]

theorem get_withSections (doc : Fields) (t : Section) :
    (withSections doc).get t.key = tableOf doc t := by
  unfold Fields.get tableOf
  rw [withSections_eq]
  cases t <;> simp [lookup_added, Section.key]

theorem get_withSections_units (doc : Fields) : (withSections doc).get "units" = unitsOf doc := by
  unfold Fields.get unitsOf
  rw [withSections_eq]
  simp [lookup_added]

/-- **How an entry of a table is linked.** -/
def LinkedAs {α : Type} (link : String → Fields → Except Fault α) (e : String × Value) (x : String × α) :
    Prop :=
  x.1 = e.1 ∧ ∃ fs, recordFields e.2 = .ok fs ∧ link e.1 fs = .ok x.2

theorem linkSection_eq_ok {α : Type} {link : String → Fields → Except Fault α} {es : Fields}
    {xs : List (String × α)} : linkSection (.map es) link = .ok xs ↔ es.Forall₂ (LinkedAs link) xs := by
  have hone : ∀ (e : String × Value) (x : String × α),
      (do return (e.1, ← link e.1 (← recordFields e.2)) : Except Fault (String × α)) = .ok x ↔
        LinkedAs link e x := by
    intro e x
    rw [bind_eq_ok]
    constructor
    · rintro ⟨fs, hfs, hx⟩
      obtain ⟨a, ha, rfl⟩ := map_eq_ok.1 hx
      exact ⟨rfl, fs, hfs, ha⟩
    · rintro ⟨hkey, fs, hfs, ha⟩
      exact ⟨fs, hfs, map_eq_ok.2 ⟨x.2, ha, Prod.ext hkey.symm rfl⟩⟩
  show (es.mapM _ : Except Fault (List (String × α))) = .ok xs ↔ _
  rw [mapM_eq_ok]
  exact ⟨List.Forall₂.imp fun e x h => (hone e x).1 h, List.Forall₂.imp fun e x h => (hone e x).2 h⟩

/-- The ids that the tables of a document declare. -/
def declaredBy (tables : Section → Fields) : Declared :=
  ⟨(tables .symbols).map Prod.fst, (tables .declarations).map Prod.fst,
   (tables .signatures).map Prod.fst, (tables .types).map Prod.fst⟩

theorem table_declaredBy (tables : Section → Fields) (t : Section) :
    (declaredBy tables).table t = (tables t).map Prod.fst := by
  cases t <;> rfl

variable {doc : Fields} {tables : Section → Fields} {f : Facts}

/-- **A document is linked table by table**, every record against the declared ids. -/
theorem link_eq_ok (htables : ∀ t, tableOf doc t = .map (tables t)) :
    Facts.link (.map doc) = .ok f ↔
      (∀ t, (tables t).Forall₂ (LinkedAs (linkRecord (declaredBy tables) t)) (f.table t)) ∧
      ∃ us, (unitsOf doc).elementsIfTrue = .ok us ∧
        us.Forall₂ (fun raw u => linkUnit (declaredBy tables) raw = .ok u) f.units := by
  have hget : ∀ t : Section, (withSections doc).get t.key = .map (tables t) := fun t =>
    (get_withSections doc t).trans (htables t)
  have hsymbols : (withSections doc).get "symbols" = .map (tables .symbols) := hget .symbols
  have hdeclarations : (withSections doc).get "declarations" = .map (tables .declarations) :=
    hget .declarations
  have hsignatures : (withSections doc).get "signatures" = .map (tables .signatures) := hget .signatures
  have htypes : (withSections doc).get "types" = .map (tables .types) := hget .types
  simp only [Facts.link, bind_eq_ok, Value.fields, Except.ok.injEq, exists_eq_left', hsymbols,
    hdeclarations, hsignatures, htypes, get_withSections_units, sectionKeys_map, linkSection_eq_ok,
    mapM_eq_ok]
  constructor
  · rintro ⟨types, htypes, declarations, hdeclarations, signatures, hsignatures, symbols, hsymbols, us,
      hus, units, hunits, hf⟩
    cases hf
    refine ⟨fun t => ?_, us, hus, hunits⟩
    cases t with
    | symbols => exact hsymbols
    | declarations => exact hdeclarations
    | signatures => exact hsignatures
    | types => exact htypes
  · rintro ⟨hall, us, hus, hunits⟩
    exact ⟨f.types, hall .types, f.declarations, hall .declarations, f.signatures, hall .signatures,
      f.symbols, hall .symbols, us, hus, f.units, hunits, rfl⟩

/-! ## 3. Order -/

/-- **The same ids are declared**, in whatever order. -/
def Declared.Same (d d' : Declared) : Prop := ∀ t i, i ∈ d.table t ↔ i ∈ d'.table t

theorem reference_congr {ids ids' : List String} (h : ∀ i, i ∈ ids ↔ i ∈ ids') (table : Section) :
    reference table ids = reference table ids' := by
  funext v
  have hcontains : ids.contains v.text = ids'.contains v.text := by
    rw [Bool.eq_iff_iff, List.contains_iff_mem, List.contains_iff_mem]
    exact h _
  unfold reference
  cases v with
  | null => rfl
  | _ => simp only [hcontains]

theorem references_congr {ids ids' : List String} (h : ∀ i, i ∈ ids ↔ i ∈ ids') (table : Section) :
    references table ids = references table ids' := by
  funext v
  unfold references
  rw [reference_congr h]

section

variable {d d' : Declared} (h : d.Same d')

include h

/-- Reading references depends on which ids are declared only. -/
theorem readers_congr : d.symbol = d'.symbol ∧ d.symbolList = d'.symbolList ∧
    d.declaration = d'.declaration ∧ d.declarationList = d'.declarationList ∧
    d.signature = d'.signature ∧ d.signatureList = d'.signatureList ∧
    d.type = d'.type ∧ d.typeList = d'.typeList := by
  have hone : ∀ {σ : Type} (mk : String → σ) (t : Section),
      (fun v => do return (← reference t (d.table t) v).map mk) =
        (fun v => do return (← reference t (d'.table t) v).map mk : Value → Except Fault (Option σ)) := by
    intro σ mk t
    rw [reference_congr (h t)]
  have hmany : ∀ {σ : Type} (mk : String → σ) (t : Section),
      (fun v => do return (← references t (d.table t) v).map (·.map mk)) =
        (fun v => do return (← references t (d'.table t) v).map (·.map mk) :
          Value → Except Fault (List (Option σ))) := by
    intro σ mk t
    rw [references_congr (h t)]
  exact ⟨hone SymbolId.mk .symbols, hmany SymbolId.mk .symbols, hone DeclarationId.mk .declarations,
    hmany DeclarationId.mk .declarations, hone SignatureId.mk .signatures,
    hmany SignatureId.mk .signatures, hone TypeId.mk .types, hmany TypeId.mk .types⟩

theorem linkRecord_congr : linkRecord d = linkRecord d' := by
  obtain ⟨hsymbol, hsymbols, hdeclaration, hdeclarations, hsignature, hsignatures, htype, htypes⟩ :=
    readers_congr h
  have hmembers : linkMembers d = linkMembers d' := by
    funext v
    unfold linkMembers
    rw [hsymbol]
  have htag : linkParamTag d = linkParamTag d' := by
    funext v
    unfold linkParamTag
    rw [htype]
  funext t id es
  cases t with
  | symbols =>
    show linkSymbol d id es = linkSymbol d' id es
    simp only [linkSymbol, hsymbol, hdeclarations, hdeclaration, hmembers, hsymbols, htype]
  | declarations =>
    show linkDeclaration d es = linkDeclaration d' es
    simp only [linkDeclaration, hsignature, htypes, htag]
  | signatures =>
    show linkSignature d es = linkSignature d' es
    simp only [linkSignature, hsymbols, htype, htypes, hdeclaration]
  | types =>
    show linkType d es = linkType d' es
    simp only [linkType, hsymbol, hsymbols, hsignatures, htype, htypes]

theorem linkUnit_congr : linkUnit d = linkUnit d' := by
  obtain ⟨hsymbol, -⟩ := readers_congr h
  funext raw
  unfold linkUnit
  rw [hsymbol]

end

/-- What stands under a key, when no other entry has it. -/
theorem lookup_eq_some {α : Type} {xs : List (String × α)} (hxs : (xs.map Prod.fst).Nodup) {k : String}
    {a : α} : xs.lookup k = some a ↔ (k, a) ∈ xs := by
  refine ⟨lookup_mem, fun h => ?_⟩
  induction xs with
  | nil => exact absurd h List.not_mem_nil
  | cons x r ih =>
    obtain ⟨hx, hr⟩ := List.nodup_cons.1 hxs
    rw [List.lookup_cons]
    rcases List.mem_cons.1 h with rfl | hmem
    · rw [beq_self_eq_true]
    · have hne : k ≠ x.1 := fun he => hx (he ▸ List.mem_map_of_mem hmem)
      rw [beq_false_of_ne hne]
      exact ih hr hmem

/-- Tables with the same entries hold the same under each key. -/
theorem lookup_perm {α : Type} {xs ys : List (String × α)} (h : xs.Perm ys)
    (hxs : (xs.map Prod.fst).Nodup) (k : String) : xs.lookup k = ys.lookup k := by
  have hys : (ys.map Prod.fst).Nodup := (h.map Prod.fst).nodup_iff.1 hxs
  refine Option.ext fun a => ?_
  rw [lookup_eq_some hxs, lookup_eq_some hys]
  exact h.mem_iff

/-! ## 4. Complete, and in any order -/

theorem exists_of_forall₂ {α β : Type} {R : α → β → Prop} {xs : List α} {ys : List β}
    (h : xs.Forall₂ R ys) {x : α} (hx : x ∈ xs) : ∃ y ∈ ys, R x y := by
  induction h with
  | nil => exact absurd hx List.not_mem_nil
  | @cons a b _ _ hab _ ih =>
    rcases List.mem_cons.1 hx with rfl | hx
    · exact ⟨b, List.mem_cons_self, hab⟩
    · obtain ⟨y, hy, hR⟩ := ih hx
      exact ⟨y, List.mem_cons_of_mem _ hy, hR⟩

section

variable {α : Type} {link : String → Fields → Except Fault α} {es : Fields} {xs : List (String × α)}

theorem keys_of_linkedAs (h : es.Forall₂ (LinkedAs link) xs) : xs.map Prod.fst = es.map Prod.fst := by
  induction h with
  | nil => rfl
  | cons hex _ ih => rw [List.map_cons, List.map_cons, hex.1, ih]

theorem lookup_of_linkedAs (h : es.Forall₂ (LinkedAs link) xs) {id : String} {raw : Value}
    (hraw : Value.lookup id es = some raw) :
    ∃ fs a, recordFields raw = .ok fs ∧ link id fs = .ok a ∧ xs.lookup id = some a := by
  induction h with
  | nil => cases hraw
  | @cons e x es xs hex _ ih =>
    obtain ⟨hkey, fs, hfs, ha⟩ := hex
    unfold Value.lookup at hraw
    split at hraw
    · rename_i he
      cases hraw
      subst he
      exact ⟨fs, x.2, hfs, ha, by rw [List.lookup_cons, hkey, beq_self_eq_true]⟩
    · rename_i he
      obtain ⟨fs', a, hfs', ha', hlookup⟩ := ih hraw
      have hne : (id == x.1) = false := beq_false_of_ne fun h => he (hkey ▸ h.symm)
      exact ⟨fs', a, hfs', ha', by rw [List.lookup_cons, hne]; exact hlookup⟩

end

theorem exists_lookup {α : Type} {xs : List (String × α)} {k : String} (h : k ∈ xs.map Prod.fst) :
    ∃ a, xs.lookup k = some a := by
  cases hk : xs.lookup k with
  | some a => exact ⟨a, rfl⟩
  | none =>
    obtain ⟨x, hx, rfl⟩ := List.mem_map.1 h
    have hnone := List.lookup_eq_none_iff.1 hk x hx
    rw [bne_self_eq_false] at hnone
    cases hnone

/-- **A field of a linked record resolves**: it holds what the raw record names there, and every id
    that it holds has a record. -/
structure ReferenceField.Resolves {ρ : Type} (f : Facts) (fs : Fields) (a : ρ) (r : ReferenceField ρ) :
    Prop where
  reads : r.read (fs.get r.key) = some (r.held a)
  found : ∀ i ∈ (r.held a).ids, ∃ b, (f.table r.table).lookup i = some b

/-- **A document names an id** in a field of a table. -/
inductive Names (doc : Fields) (tables : Section → Fields) : Section → String → Prop
  | record {s : Section} {e : String × Value} {fs : Fields} {r : ReferenceField s.Record}
      {held : References} {i : String} : e ∈ tables s → recordFields e.2 = .ok fs → r ∈ fieldsOf s →
      r.read (fs.get r.key) = some held → i ∈ held.ids → Names doc tables r.table i
  | unit {us : List Value} {fs : Fields} {r : ReferenceField UnitFacts} {held : References}
      {i : String} : (unitsOf doc).elementsIfTrue = .ok us → .map fs ∈ us → r ∈ unitFields →
      r.read (fs.get r.key) = some held → i ∈ held.ids → Names doc tables r.table i

theorem keys_table (htables : ∀ t, tableOf doc t = .map (tables t)) (hf : Facts.link (.map doc) = .ok f)
    (t : Section) : (f.table t).map Prod.fst = (tables t).map Prod.fst :=
  keys_of_linkedAs (((link_eq_ok htables).1 hf).1 t)

theorem resolves_of_linked (htables : ∀ t, tableOf doc t = .map (tables t))
    (hf : Facts.link (.map doc) = .ok f) {ρ : Type} {fs : Fields} {a : ρ} {r : ReferenceField ρ}
    (h : r.Linked (declaredBy tables) fs a) : r.Resolves f fs a := by
  refine ⟨h.reads, fun i hi => exists_lookup ?_⟩
  rw [keys_table htables hf, ← table_declaredBy]
  exact h.declared i hi

/-- What an accepted document names is declared. -/
theorem declared_of_names (htables : ∀ t, tableOf doc t = .map (tables t))
    (hf : Facts.link (.map doc) = .ok f) {t : Section} {i : String} (h : Names doc tables t i) :
    i ∈ (tables t).map Prod.fst := by
  obtain ⟨hall, us', hus', hunits⟩ := (link_eq_ok htables).1 hf
  rw [← table_declaredBy]
  cases h with
  | @record s e fs r held i he hfs hr hread hi =>
    obtain ⟨x, -, -, fs', hfs', ha⟩ := exists_of_forall₂ (hall s) he
    have hsame : fs = fs' := Except.ok.inj (hfs.symm.trans hfs')
    subst hsame
    have hlinked := (gives_linkRecord_linked _ fs s e.1).of_ok ha r hr
    have hheld : held = r.held x.2 := Option.some.inj (hread.symm.trans hlinked.reads)
    exact hlinked.declared i (hheld ▸ hi)
  | @unit us fs r held i hus hmem hr hread hi =>
    have hsame : us = us' := Except.ok.inj (hus.symm.trans hus')
    subst hsame
    obtain ⟨u, -, hu⟩ := exists_of_forall₂ hunits hmem
    obtain ⟨fs', hfs', hall'⟩ := (gives_linkUnit_linked _ _).of_ok hu
    cases hfs'
    have hlinked := hall' r hr
    have hheld : held = r.held u := Option.some.inj (hread.symm.trans hlinked.reads)
    exact hlinked.declared i (hheld ▸ hi)

/-- **A document with its tables in another order** is accepted with the same records and units. -/
theorem link_perm {doc' : Fields} {tables' : Section → Fields}
    (htables : ∀ t, tableOf doc t = .map (tables t)) (htables' : ∀ t, tableOf doc' t = .map (tables' t))
    (hperm : ∀ t, (tables t).Perm (tables' t)) (hunits : unitsOf doc' = unitsOf doc)
    (hf : Facts.link (.map doc) = .ok f) :
    ∃ f', Facts.link (.map doc') = .ok f' ∧ (∀ t, (f.table t).Perm (f'.table t)) ∧
      f'.units = f.units := by
  obtain ⟨hall, us, hus, hlinked⟩ := (link_eq_ok htables).1 hf
  -- both documents declare the same ids, so their records are linked alike
  have hsame : (declaredBy tables).Same (declaredBy tables') := by
    intro t i
    rw [table_declaredBy, table_declaredBy]
    exact ((hperm t).map Prod.fst).mem_iff
  have hmoved : ∀ t, ∃ xs : List (String × t.Record),
      (tables' t).Forall₂ (LinkedAs (linkRecord (declaredBy tables) t)) xs ∧ xs.Perm (f.table t) :=
    fun t => List.perm_comp_forall₂ (hperm t).symm (hall t)
  choose xs hxs hxsPerm using hmoved
  let f' : Facts := ⟨xs .symbols, xs .declarations, xs .signatures, xs .types, f.units⟩
  have htable : ∀ t, f'.table t = xs t := by
    intro t
    cases t <;> rfl
  refine ⟨f', (link_eq_ok htables').2 ⟨fun t => ?_, us, ?_, ?_⟩, fun t => ?_, rfl⟩
  · rw [htable, ← linkRecord_congr hsame]
    exact hxs t
  · rw [hunits]
    exact hus
  · rw [← linkUnit_congr hsame]
    exact hlinked
  · rw [htable]
    exact (hxsPerm t).symm

/-- **Linking is complete and independent of order.**  Take a document whose tables are maps.  If it is
    accepted, each table has its ids, and every reference field of every linked record and of every
    unit holds what the raw one names there, all of which has a record.  If it names an id that is not
    declared, it is not accepted.  And a document with the entries of its tables in another order is
    accepted just if this one is, with the same record under each id and the same units. -/
theorem link_complete (htables : ∀ t, tableOf doc t = .map (tables t)) :
    (∀ f, Facts.link (.map doc) = .ok f →
      (∀ t, (f.table t).map Prod.fst = (tables t).map Prod.fst) ∧
      (∀ t id raw, Value.lookup id (tables t) = some raw →
        ∃ fs a, recordFields raw = .ok fs ∧ (f.table t).lookup id = some a ∧
          ∀ r ∈ fieldsOf t, r.Resolves f fs a) ∧
      ∃ us, (unitsOf doc).elementsIfTrue = .ok us ∧
        us.Forall₂ (fun raw u => ∃ fs, raw = .map fs ∧ ∀ r ∈ unitFields, r.Resolves f fs u) f.units) ∧
    (∀ t i, Names doc tables t i → i ∉ (tables t).map Prod.fst →
      ∀ f, Facts.link (.map doc) ≠ .ok f) ∧
    (∀ (doc' : Fields) (tables' : Section → Fields), (∀ t, tableOf doc' t = .map (tables' t)) →
      (∀ t, ((tables t).map Prod.fst).Nodup) → (∀ t, (tables t).Perm (tables' t)) →
      unitsOf doc' = unitsOf doc →
      ((∃ f, Facts.link (.map doc) = .ok f) ↔ ∃ f', Facts.link (.map doc') = .ok f') ∧
      ∀ f f', Facts.link (.map doc) = .ok f → Facts.link (.map doc') = .ok f' →
        (∀ t id, (f.table t).lookup id = (f'.table t).lookup id) ∧ f'.units = f.units) := by
  refine ⟨fun f hf => ⟨keys_table htables hf, fun t id raw hraw => ?_, ?_⟩, fun t i hnames hnew f hf => ?_,
    fun doc' tables' htables' hkeys hperm hunits => ⟨⟨?_, ?_⟩, fun f f' hf hf' => ?_⟩⟩
  · obtain ⟨fs, a, hfs, ha, hlookup⟩ := lookup_of_linkedAs (((link_eq_ok htables).1 hf).1 t) hraw
    refine ⟨fs, a, hfs, hlookup, fun r hr => resolves_of_linked htables hf ?_⟩
    exact (gives_linkRecord_linked _ fs t id).of_ok ha r hr
  · obtain ⟨-, us, hus, hlinked⟩ := (link_eq_ok htables).1 hf
    refine ⟨us, hus, hlinked.imp fun raw u hu => ?_⟩
    obtain ⟨fs, hraw, hall⟩ := (gives_linkUnit_linked _ raw).of_ok hu
    exact ⟨fs, hraw, fun r hr => resolves_of_linked htables hf (hall r hr)⟩
  · exact hnew (declared_of_names htables hf hnames)
  · rintro ⟨f, hf⟩
    obtain ⟨f', hf', -⟩ := link_perm htables htables' hperm hunits hf
    exact ⟨f', hf'⟩
  · rintro ⟨f', hf'⟩
    obtain ⟨f, hf, -⟩ := link_perm htables' htables (fun t => (hperm t).symm) hunits.symm hf'
    exact ⟨f, hf⟩
  · obtain ⟨g, hg, hsame, hunits'⟩ := link_perm htables htables' hperm hunits hf
    have hfg : f' = g := Except.ok.inj (hf'.symm.trans hg)
    subst hfg
    refine ⟨fun t id => lookup_perm (hsame t) ?_ id, hunits'⟩
    rw [keys_table htables hf]
    exact hkeys t

/-! ## 5. A cycle -/

/-- A document with the given tables and units. -/
def documentOf (tables : Section → Fields) (units : Value) : Fields :=
  [("symbols", .map (tables .symbols)), ("declarations", .map (tables .declarations)),
   ("signatures", .map (tables .signatures)), ("types", .map (tables .types)), ("units", units)]

theorem tableOf_documentOf (tables : Section → Fields) (units : Value) (t : Section) :
    tableOf (documentOf tables units) t = .map (tables t) := by
  cases t <;> rfl

/-- Two types that refer to each other, one before it is declared, a symbol whose id is a number, and
    single references where several may stand. -/
def loopTables : Section → Fields
  | .symbols => [("7", .map [("declarations", .str "d"), ("type", .str "t1"),
      ("members", .map [("self", .int 7), ("none", .null)])]), ("s", .null)]
  | .declarations => [("d", .map [("signature", .str "g"), ("implements", .bool false),
      ("paramTags", .list [.map [("name", .str "p"), ("type", .str "t2")]])])]
  | .signatures => [("g", .map [("parameters", .int 7), ("declaration", .str "d")])]
  | .types => [("t1", .map [("symbol", .int 7), ("target", .str "t2")]),
      ("t2", .map [("types", .list [.str "t1", .null]), ("callSignatures", .str "g")])]

/-- The unit of the two types. -/
def loopUnits : Value := .list [.map [("name", .str "u"), ("symbol", .int 7)]]

/-- The same tables with a target that is not declared. -/
def danglingTables : Section → Fields
  | .types => [("t1", .map [("target", .str "t3")])]
  | t => loopTables t

/-- **A document with a cycle** is accepted, and with its tables reversed the same is linked; with a
    reference to nothing it is refused. -/
theorem link_complete_loop :
    (∃ f f' t, Facts.link (.map (documentOf loopTables loopUnits)) = .ok f ∧
      Facts.link (.map (documentOf (fun t => (loopTables t).reverse) loopUnits)) = .ok f' ∧
      f.types.lookup "t1" = some t ∧ f'.types.lookup "t1" = some t ∧
      t.target.map (·.text) = some "t2" ∧ t.symbol.map (·.text) = some "7") ∧
    ∀ f, Facts.link (.map (documentOf danglingTables loopUnits)) ≠ .ok f := by
  obtain ⟨haccepted, -, horder⟩ := link_complete (tableOf_documentOf loopTables loopUnits)
  obtain ⟨-, hrefused, -⟩ := link_complete (tableOf_documentOf danglingTables loopUnits)
  constructor
  · have hcheck : (Facts.link (.map (documentOf loopTables loopUnits))).toOption.any (fun _ => true) =
        true := by decide +kernel
    obtain ⟨f, hf, -⟩ := exists_ok_of_any hcheck
    have hkeys : ∀ t, ((loopTables t).map Prod.fst).Nodup := by
      intro t
      cases t <;> decide
    obtain ⟨hboth, hsame⟩ := horder _ _ (tableOf_documentOf (fun t => (loopTables t).reverse) loopUnits)
      hkeys (fun t => (List.reverse_perm _).symm) rfl
    obtain ⟨f', hf'⟩ := hboth.1 ⟨f, hf⟩
    obtain ⟨-, hrecords, -⟩ := haccepted f hf
    obtain ⟨fs, t, hfs, ht, hresolves⟩ := hrecords .types "t1" _ rfl
    cases hfs
    have hfields : ∀ r ∈ typeFields, r.Resolves f _ t := hresolves
    simp only [typeFields, List.forall_mem_cons] at hfields
    obtain ⟨hsymbol, -, -, -, htarget, -⟩ := hfields
    refine ⟨f, f', t, hf, hf', ht, ?_, ?_, ?_⟩
    · exact ((hsame f f' hf hf').1 .types "t1").symm.trans ht
    · exact (References.one.inj (Option.some.inj htarget.reads)).symm
    · exact (References.one.inj (Option.some.inj hsymbol.reads)).symm
  · have hnames : Names (documentOf danglingTables loopUnits) danglingTables .types "t3" :=
      Names.record (e := ("t1", .map [("target", .str "t3")])) (s := .types) (i := "t3")
        (r := ReferenceField.type "target" (·.target))
        List.mem_cons_self rfl (by simp [fieldsOf, typeFields]) rfl List.mem_cons_self
    exact hrefused .types "t3" hnames (by decide)

end Link

end ApiReference
