/-
  What a member overrides, and the documentation that is its own, read off the facts.

  A member of a class or interface overrides the first member by its name that the base types have
  and that is not private.  Its own documentation comes from its comment, the tags in it and its
  declaration; what these leave unset it takes from the member it overrides and from its last
  overload.

  1. `Facts.overridden`  -- the members that a symbol may override, in the order of the base types;
  2. `Comment.docs`      -- the documentation in a comment, which no other field of a record touches;
                            `Member.core`, the fields that linking and documenting settle;
  3. `Facts.ownDocs`     -- the documentation that a record has of its own;
  4. `Docs.backfill`     -- taking over is associative, and from nothing changes nothing.
-/
import ApiReference.Build.Fields

namespace ApiReference

/-! ## 1. Overridden members -/

namespace Facts

variable (f : Facts)

/-- The member by the name of a symbol that a base type has, if it is another symbol. -/
def overriddenIn (symbol : SymbolId) (base : Option TypeId) : Option SymbolId :=
  match f.lookupMember (base.map .known) (f.symbol symbol).escapedName with
  | .ok (some s) => if s = symbol then none else some s
  | _ => none

/-- **The members that a symbol may override**: those by its name in the base types of the class or
    interface that declares it, in order. -/
def overridden (symbol : SymbolId) : List SymbolId :=
  match f.parentOf symbol with
  | none => []
  | some parent =>
    if (f.symbol parent).flags.meets SymbolFlags.classesAndInterfaces then
      match (f.symbol parent).declaredType with
      | none => []
      | some t => (f.type (.known t)).baseTypes.filterMap (f.overriddenIn symbol)
    else []

variable {f}

/-- What is found by the name is overridden, unless it is the symbol itself. -/
theorem overriddenIn_eq {symbol : SymbolId} {base : Option TypeId} {o : Option SymbolId}
    (h : f.lookupMember (base.map .known) (f.symbol symbol).escapedName = .ok o) :
    f.overriddenIn symbol base = o.filter (· ≠ symbol) := by
  unfold overriddenIn
  rw [h]
  cases o with
  | none => rfl
  | some s =>
    by_cases hs : s = symbol
    · simp [hs, Option.filter]
    · simp [hs, Option.filter]

end Facts

/-! ## 2. Comments -/

/-- **The documentation in a comment**: its text, and what its tags add. -/
def Comment.docs (c : Comment) : Docs :=
  (({ docs := { summary := Build.nonEmpty c.text } } : Member).applyTags c.tags .public_).1.docs

namespace Member

/-- What a tag does to the documentation depends on nothing else. -/
theorem docs_applyTag {m m' : Member} (h : m.docs = m'.docs) (tag : Tag) :
    (m.applyTag tag).docs = (m'.applyTag tag).docs := by
  unfold applyTag
  dsimp only
  split <;> simp only [mapDocs, mark, h]

theorem docs_applyTags {m m' : Member} (h : m.docs = m'.docs) (tags : List Tag) (a a' : Modifier) :
    (m.applyTags tags a).1.docs = (m'.applyTags tags a').1.docs := by
  unfold applyTags
  induction tags generalizing m m' a a' with
  | nil => exact h
  | cons tag r ih =>
    rw [List.foldl_cons, List.foldl_cons]
    unfold foldTag
    dsimp only
    split
    · exact ih h a a'
    · split
      · refine ih (?_ : (m.mapDocs _).docs = (m'.mapDocs _).docs) _ _
        simp only [mapDocs, h]
      · exact ih (docs_applyTag h tag) _ _

/-- **A member with other texts and marks**: all other fields are as they were. -/
def Retold (m m' : Member) : Prop :=
  m' = { m with name := m'.name, ignored := m'.ignored, modifiers := m'.modifiers, docs := m'.docs }

theorem Retold.trans {m m' m'' : Member} (h : m.Retold m') (h' : m'.Retold m'') : m.Retold m'' := by
  unfold Retold at h h' ⊢
  rw [h'.trans (by rw [h])]

theorem retold_applyTag (m : Member) (tag : Tag) : m.Retold (m.applyTag tag) := by
  unfold applyTag
  dsimp only
  split <;> rfl

/-- Tags tell of a member, and change nothing else. -/
theorem retold_applyTags (m : Member) (tags : List Tag) (a : Modifier) :
    m.Retold (m.applyTags tags a).1 := by
  unfold applyTags
  suffices h : ∀ st : Member × Modifier, st.1.Retold (tags.foldl foldTag st).1 from h (m, a)
  intro st
  induction tags generalizing st with
  | nil => rfl
  | cons tag r ih =>
    refine Retold.trans ?_ (ih (foldTag st tag))
    unfold foldTag
    dsimp only
    split
    · rfl
    · split
      · rfl
      · exact retold_applyTag st.1 tag

/-- **What a member has once it is linked and documented**: its other fields are added beside. -/
def core (m : Member) : Member :=
  { kind := m.kind, id := m.id, raw := m.raw, declaration := m.declaration
    overrides := m.overrides, docs := m.docs, overloads := m.overloads }

/-- **The fields of a core** are the same. -/
structure SameFields (m m' : Member) : Prop where
  kind : m.kind = m'.kind
  id : m.id = m'.id
  raw : m.raw = m'.raw
  declaration : m.declaration = m'.declaration
  overrides : m.overrides = m'.overrides
  docs : m.docs = m'.docs
  overloads : m.overloads = m'.overloads

/-- Members with one core have its fields in common, -/
theorem fields_of_core {m m' : Member} (h : m.core = m'.core) : m.SameFields m' where
  kind := (congrArg kind h : m.core.kind = m'.core.kind)
  id := (congrArg id h : m.core.id = m'.core.id)
  raw := (congrArg raw h : m.core.raw = m'.core.raw)
  declaration := (congrArg declaration h : m.core.declaration = m'.core.declaration)
  overrides := (congrArg overrides h : m.core.overrides = m'.core.overrides)
  docs := (congrArg docs h : m.core.docs = m'.core.docs)
  overloads := (congrArg overloads h : m.core.overloads = m'.core.overloads)

/-- and a member has those of its core. -/
theorem fields_of_core_eq {m c : Member} (h : m.core = c) : m.SameFields c := by
  subst h
  exact fields_of_core rfl

/-- Of all that a member has by then, tags add to the documentation only. -/
theorem core_applyTags (m : Member) (tags : List Tag) (a : Modifier) :
    (m.applyTags tags a).1.core = { m.core with docs := (m.applyTags tags a).1.docs } := by
  rw [retold_applyTags m tags a]
  rfl

end Member

/-- The comment of a member without documentation so far is all it has. -/
theorem Build.docs_document (d : DeclarationFacts) (flags : SymbolFlags) (comment : Comment)
    (name : String) {c : Member} (hc : c.docs = {}) :
    (Build.document d flags comment name c).docs = comment.docs := by
  refine Member.docs_applyTags ?_ comment.tags _ _
  rw [hc]

theorem Build.core_document (d : DeclarationFacts) (flags : SymbolFlags) (comment : Comment)
    (name : String) {c : Member} (hc : c.docs = {}) :
    (Build.document d flags comment name c).core = { c.core with docs := comment.docs } := by
  rw [← Build.docs_document d flags comment name hc]
  exact Member.core_applyTags _ comment.tags _

/-! ## 3. Documentation of one's own -/

/-- The kinds of functions. -/
def MemberKind.isFunction : MemberKind → Bool
  | .function | .method | .constructor | .callSignature | .indexSignature => true
  | _ => false

/-- The kinds that a declaration adds nothing to beside the comment. -/
def MemberKind.isPlain (kind : MemberKind) : Bool :=
  !kind.isFunction && kind ≠ .field && kind ≠ .event && kind ≠ .enumMember

theorem MemberKind.isFunction_of_isPlain {kind : MemberKind} (h : kind.isPlain = true) :
    kind.isFunction = false := by
  cases kind <;> first | rfl | cases h

namespace Facts

variable (f : Facts)

/-- The comment that documents a record: that of the signature for a function that has one, else that
    of the symbol. -/
def commentOf (kind : MemberKind) (symbol : SymbolId) (declaration : Option DeclarationId) : Comment :=
  let own := (f.symbol symbol).comment
  if kind.isFunction then
    match declaration.map f.declaration with
    | none => own
    | some d => match d.hasParameters, d.signature with
      | true, some signature => (f.signature signature).comment
      | _, _ => own
  else own

/-- What a declaration says beside the comment: the initial value of a field, the value of a member of
    an enumeration, the result of a function. -/
def declaredDocs (kind : MemberKind) (declaration : Option DeclarationId) (docs : Docs) : Docs :=
  match declaration.map f.declaration with
  | none => docs
  | some d =>
    if kind.isFunction then { docs with returnSummary := d.returns.toOption <|> docs.returnSummary }
    else match kind with
      | .field | .event => { docs with defaultValue := d.initializer.toOption <|> docs.defaultValue }
      | .enumMember => { docs with defaultValue := d.constantValue.toOption }
      | _ => docs

/-- **The documentation that a record has of its own**, by its kind, symbol and declaration. -/
def ownDocs (m : Member) : Docs :=
  match m.raw with
  | none => {}
  | some symbol => f.declaredDocs m.kind m.declaration (f.commentOf m.kind symbol m.declaration).docs

end Facts

theorem Value.toOption_of_ne {v : Value} (h : v ≠ .null) : v.toOption = some v := by
  cases v with
  | null => exact absurd rfl h
  | _ => rfl

/-- What a member can take over: the value of a member of an enumeration is its own even if it has
    none. -/
def MemberKind.inherits (kind : MemberKind) (docs : Docs) : Docs :=
  if kind = .enumMember then { docs with defaultValue := none } else docs

theorem MemberKind.inherits_of_ne {kind : MemberKind} (h : kind ≠ .enumMember) : kind.inherits = id := by
  funext docs
  exact if_neg h

theorem MemberKind.inherits_of_isPlain {kind : MemberKind} (h : kind.isPlain = true) :
    kind.inherits = id := by
  refine inherits_of_ne ?_
  rintro rfl
  exact nomatch h

/-- The comment of a record that is no function is that of its symbol. -/
theorem Facts.commentOf_of_not_isFunction {f : Facts} {kind : MemberKind} (h : kind.isFunction = false)
    (symbol : SymbolId) (declaration : Option DeclarationId) :
    f.commentOf kind symbol declaration = (f.symbol symbol).comment :=
  if_neg (by rw [h]; exact Bool.false_ne_true)

/-- A record of a plain kind has the comment of its symbol. -/
theorem Facts.declaredDocs_of_isPlain {f : Facts} {kind : MemberKind} (h : kind.isPlain = true)
    (symbol : SymbolId) (declaration : Option DeclarationId) :
    f.declaredDocs kind declaration (f.commentOf kind symbol declaration).docs =
      (f.symbol symbol).comment.docs := by
  simp only [MemberKind.isPlain, Bool.and_eq_true, Bool.not_eq_true', decide_eq_true_eq, ne_eq] at h
  obtain ⟨⟨⟨hfunction, hfield⟩, hevent⟩, henum⟩ := h
  rw [commentOf_of_not_isFunction hfunction]
  unfold declaredDocs
  split
  · rfl
  · rw [if_neg (by rw [hfunction]; exact Bool.false_ne_true)]
    split
    · exact absurd rfl hfield
    · exact absurd rfl hevent
    · exact absurd rfl henum
    · rfl

/-! ## 4. Taking over -/

namespace Docs

theorem backfill_assoc (a b c : Docs) : (a.backfill b).backfill c = a.backfill (b.backfill c) := by
  simp [backfill, Option.or_assoc]

@[simp] theorem backfill_empty (a : Docs) : a.backfill {} = a := by
  cases a
  simp [backfill]

end Docs

end ApiReference
