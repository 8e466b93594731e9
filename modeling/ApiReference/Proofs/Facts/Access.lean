/-
  The visibility and the place of a member, read off the facts.

  A record carries the level of the last tag of its comment that sets one.  Without such a tag it is
  what the declaration says, and where that says nothing, what the name implies.  A record whose name is
  no text has no level: it is given up before it gets one.

  1. `Modifiers.access`  -- the levels in a set of modifiers;
     `Modifiers.placing` -- these, and the others that decide its side and its place in a sorted list;
  2. `Tag.level?`        -- tags: the last one that sets a level decides, and no tag marks a record with
                            one;
  3. `Facts.levelOf`     -- the level of a record, by its kind, symbol and declaration;
     `Facts.Leveled`     -- a record with that level and no other;
  4. `Standing`          -- what the level and the sort key of a record rest on.
-/
import ApiReference.Model.ClassView
import ApiReference.Proofs.Facts.Overrides

namespace ApiReference

/-! ## 1. Levels in a set -/

/-- Does a modifier place a member, as a level of visibility, on the static side or by letting it sink? -/
def Modifier.isPlacing : Modifier → Bool
  | .public_ | .private_ | .protected_ | .internal | .static | .deprecated | .optional => true
  | _ => false

namespace Modifiers

variable {s s' : Modifiers} {x : Modifier}

/-- **The levels of visibility in a set of modifiers.** -/
def access (s : Modifiers) : List Modifier :=
  [.public_, .private_, .protected_, .internal].filter s.has

theorem mem_access : x ∈ s.access ↔ x.isAccessibility = true ∧ s.has x = true := by
  unfold access
  rw [List.mem_filter]
  refine and_congr ?_ Iff.rfl
  cases x <;> decide

theorem has_eq_of_access (h : s.access = s'.access) (hx : x.isAccessibility = true) :
    s.has x = s'.has x := by
  have hmem : s.has x = true ↔ s'.has x = true := by
    have hboth : x ∈ s.access ↔ x ∈ s'.access := by rw [h]
    simpa only [mem_access, hx, true_and] using hboth
  exact Bool.eq_iff_iff.2 hmem

/-- **The modifiers of a set that place a member.** -/
def placing (s : Modifiers) : List Modifier :=
  [.public_, .private_, .protected_, .internal, .static, .deprecated, .optional].filter s.has

theorem mem_placing : x ∈ s.placing ↔ x.isPlacing = true ∧ s.has x = true := by
  unfold placing
  rw [List.mem_filter]
  refine and_congr ?_ Iff.rfl
  cases x <;> decide

theorem has_eq_of_placing (h : s.placing = s'.placing) (hx : x.isPlacing = true) :
    s.has x = s'.has x := by
  have hmem : s.has x = true ↔ s'.has x = true := by
    have hboth : x ∈ s.placing ↔ x ∈ s'.placing := by rw [h]
    simpa only [mem_placing, hx, true_and] using hboth
  exact Bool.eq_iff_iff.2 hmem

/-- The levels are among the modifiers that place a member. -/
theorem access_eq_of_placing (h : s.placing = s'.placing) : s.access = s'.access := by
  unfold access
  refine List.filter_congr fun y hy => has_eq_of_placing h ?_
  revert hy
  cases y <;> decide

/-- A modifier that is not asked about changes no answer. -/
theorem filter_has_insert {ys : List Modifier} (hx : x ∉ ys) :
    ys.filter (s.insert x).has = ys.filter s.has := by
  refine List.filter_congr fun y hy => ?_
  have hne : x ≠ y := fun e => hx (e ▸ hy)
  rw [has_insert, decide_eq_false hne, Bool.or_false]

/-- A modifier that is no level adds none. -/
theorem access_insert (hx : x.isAccessibility = false) : (s.insert x).access = s.access := by
  refine filter_has_insert ?_
  revert hx
  cases x <;> decide

theorem access_insertIf (p : Bool) (hx : x.isAccessibility = false) :
    (s.insertIf p x).access = s.access := by
  unfold insertIf
  split
  · exact access_insert hx
  · rfl

/-- A modifier that places no member leaves every member where it is. -/
theorem placing_insert (hx : x.isPlacing = false) : (s.insert x).placing = s.placing := by
  refine filter_has_insert ?_
  revert hx
  cases x <;> decide

theorem placing_insertIf (p : Bool) (hx : x.isPlacing = false) :
    (s.insertIf p x).placing = s.placing := by
  unfold insertIf
  split
  · exact placing_insert hx
  · rfl

/-- A level added to a set without one is the only one. -/
theorem access_insert_level (hs : s.access = []) (hx : x.isAccessibility = true) :
    (s.insert x).access = [x] := by
  have hnone : ∀ y, y.isAccessibility = true → s.has y = false := by
    intro y hy
    have hempty : s.access = Modifiers.access ∅ := hs.trans (by decide)
    rw [has_eq_of_access hempty hy]
    revert hy
    cases y <;> decide
  unfold access
  simp only [List.filter_cons, List.filter_nil, has_insert]
  rw [hnone .public_ rfl, hnone .private_ rfl, hnone .protected_ rfl, hnone .internal rfl]
  revert hx
  cases x <;> decide

end Modifiers

/-! ## 2. Tags -/

/-- **The level that a tag sets**, by its own name or as the text of an `access` tag. -/
def Tag.level? (tag : Tag) : Option Modifier :=
  match accessibilityTag? tag.name with
  | some level => some level
  | none => if tag.name = "access" then some (accessLevel (Text.trim tag.text)) else none

/-- **The level that tags leave in force**: that of the last one that sets any. -/
def lastLevel (tags : List Tag) (level : Modifier) : Modifier :=
  ((tags.filterMap Tag.level?).getLast?).getD level

theorem isAccessibility_accessibilityTag {name : String} {level : Modifier}
    (h : accessibilityTag? name = some level) : level.isAccessibility = true := by
  unfold accessibilityTag? at h
  split at h <;> cases h <;> rfl

theorem isAccessibility_accessLevel (text : String) : (accessLevel text).isAccessibility = true := by
  unfold accessLevel
  split <;> rfl

theorem Tag.isAccessibility_level {tag : Tag} {level : Modifier} (h : tag.level? = some level) :
    level.isAccessibility = true := by
  unfold level? at h
  split at h
  · rename_i hname
    exact Option.some.inj h ▸ isAccessibility_accessibilityTag hname
  · split at h
    · exact Option.some.inj h ▸ isAccessibility_accessLevel _
    · exact nomatch h

theorem isAccessibility_lastLevel {tags : List Tag} {level : Modifier}
    (h : level.isAccessibility = true) : (lastLevel tags level).isAccessibility = true := by
  unfold lastLevel
  cases hlast : (tags.filterMap Tag.level?).getLast? with
  | none => exact h
  | some l =>
    obtain ⟨tag, -, htag⟩ := List.mem_filterMap.1 (List.mem_of_getLast? hlast)
    exact tag.isAccessibility_level htag

/-- One tag before the others: it decides if none of them does. -/
theorem lastLevel_cons (tag : Tag) (tags : List Tag) (level : Modifier) :
    lastLevel (tag :: tags) level = lastLevel tags (tag.level?.getD level) := by
  unfold lastLevel
  cases htag : tag.level? with
  | none => rw [List.filterMap_cons_none htag, Option.getD_none]
  | some l =>
    rw [List.filterMap_cons_some htag, List.getLast?_cons, Option.getD_some, Option.getD_some]

namespace Member

/-- A tag that other parts take care of sets no level. -/
theorem level_of_isSkippedTag {tag : Tag} (h : isSkippedTag tag.name = true) : tag.level? = none := by
  unfold isSkippedTag at h
  simp only [List.contains_eq_mem, decide_eq_true_eq, List.mem_cons, List.not_mem_nil, or_false] at h
  unfold Tag.level?
  rcases h with h | h | h | h | h | h <;> rw [h] <;> rfl

theorem level_foldTag (st : Member × Modifier) (tag : Tag) :
    (foldTag st tag).2 = tag.level?.getD st.2 := by
  unfold foldTag
  dsimp only
  split
  · rename_i hskipped
    rw [level_of_isSkippedTag hskipped]
    rfl
  · unfold Tag.level?
    cases accessibilityTag? tag.name with
    | some level => rfl
    | none =>
      dsimp only
      split <;> rfl

theorem access_applyTag (m : Member) (tag : Tag) :
    (m.applyTag tag).modifiers.access = m.modifiers.access := by
  unfold applyTag
  dsimp only
  split <;> first | rfl | exact Modifiers.access_insert rfl

theorem access_foldTag (st : Member × Modifier) (tag : Tag) :
    (foldTag st tag).1.modifiers.access = st.1.modifiers.access := by
  unfold foldTag
  dsimp only
  split
  · rfl
  · split
    · rfl
    · exact access_applyTag st.1 tag

/-- **Tags leave the last level they set**, and mark the record with none. -/
theorem level_applyTags (m : Member) (tags : List Tag) (a : Modifier) :
    (m.applyTags tags a).2 = lastLevel tags a ∧
      (m.applyTags tags a).1.modifiers.access = m.modifiers.access := by
  unfold applyTags
  suffices h : ∀ st : Member × Modifier, (tags.foldl foldTag st).2 = lastLevel tags st.2 ∧
      (tags.foldl foldTag st).1.modifiers.access = st.1.modifiers.access from h (m, a)
  intro st
  induction tags generalizing st with
  | nil => exact ⟨rfl, rfl⟩
  | cons tag r ih =>
    obtain ⟨hlevel, haccess⟩ := ih (foldTag st tag)
    rw [List.foldl_cons, lastLevel_cons]
    refine ⟨hlevel.trans ?_, haccess.trans (access_foldTag st tag)⟩
    rw [level_foldTag]

/-- **A record without a level** that is marked with what its tags leave has that one and no other. -/
theorem access_applyTags_mark {m : Member} {tags : List Tag} {a : Modifier}
    (hm : m.modifiers.access = []) (ha : a.isAccessibility = true) :
    ((m.applyTags tags a).1.mark (m.applyTags tags a).2).modifiers.access = [lastLevel tags a] := by
  obtain ⟨hlevel, haccess⟩ := level_applyTags m tags a
  rw [hlevel]
  exact Modifiers.access_insert_level (haccess.trans hm) (isAccessibility_lastLevel ha)

end Member

/-! ## 3. The level of a record -/

/-- **A record with one level at most.** -/
def Member.SingleLevel (m : Member) : Prop := m.modifiers.access.length ≤ 1

theorem isAccessibility_declaredAccess (d : DeclarationFacts) (name : String) :
    (Build.declaredAccess d name).isAccessibility = true := by
  unfold Build.declaredAccess defaultAccessibility
  split
  · rfl
  · split
    · rfl
    · split
      · rfl
      · split <;> rfl

namespace Facts

variable (f : Facts)

/-- The name of a record before its tags are read: that of an exported declaration, else that of the
    symbol. -/
def givenName (symbol : SymbolId) (declaration : Option DeclarationId) : Value :=
  let d := (declaration.map f.declaration).getD {}
  if d.modifiers.meets SyntaxFlags.exports && d.name.isTrue then d.name else f.symbolName symbol

/-- **The level of a record with a name**: that of the last tag of its comment that sets one, else what
    its declaration states, else what the name implies. -/
def level (kind : MemberKind) (symbol : SymbolId) (declaration : Option DeclarationId) (name : String) :
    Modifier :=
  lastLevel (f.commentOf kind symbol declaration).tags
    (Build.declaredAccess ((declaration.map f.declaration).getD {}) name)

/-- The level of a record that stands for a symbol, if its name is a text. -/
def levelOf (m : Member) : Option Modifier :=
  m.raw.bind fun symbol => match f.givenName symbol m.declaration with
    | .str name => some (f.level m.kind symbol m.declaration name)
    | _ => none

/-- **A record with the level that the facts give it and no other**, or without one where they give it
    none. -/
def Leveled (m : Member) : Prop := m.modifiers.access = (f.levelOf m).toList

variable {f}

theorem leveled_empty : f.Leveled {} := (by decide : ({} : Member).modifiers.access = [])

theorem Leveled.single {m : Member} (h : f.Leveled m) : m.SingleLevel := by
  unfold Member.SingleLevel
  rw [h]
  cases f.levelOf m <;> simp

theorem levelOf_eq {m : Member} {symbol : SymbolId} {name : String} (hraw : m.raw = some symbol)
    (hname : f.givenName symbol m.declaration = .str name) :
    f.levelOf m = some (f.level m.kind symbol m.declaration name) := by
  unfold levelOf
  rw [hraw, Option.bind_some, hname]

/-- A name that is no text gives no level. -/
theorem levelOf_eq_none {m : Member} {symbol : SymbolId} (hraw : m.raw = some symbol)
    (hname : ∀ name, f.givenName symbol m.declaration ≠ .str name) : f.levelOf m = none := by
  unfold levelOf
  rw [hraw, Option.bind_some]
  split
  · rename_i name he
    exact absurd he (hname name)
  · rfl

end Facts

/-! ## 4. Standing -/

/-- **What the level and the place of a record rest on**, and the modifiers that tell them. -/
structure Standing where
  kind : MemberKind
  raw : Option SymbolId
  declaration : Option DeclarationId
  location : Option SourceLocation
  placing : List Modifier

def Member.standing (m : Member) : Standing :=
  ⟨m.kind, m.raw, m.declaration, m.location, m.modifiers.placing⟩

namespace Member

variable {m m' : Member}

theorem access_eq_of_standing (h : m.standing = m'.standing) : m.modifiers.access = m'.modifiers.access :=
  Modifiers.access_eq_of_placing (congrArg Standing.placing h)

/-- What a member lists is no part of its standing. -/
theorem standing_listing (m : Member) (l : Option (List (Option MemberHandle))) :
    ({ m with members := l } : Member).standing = m.standing := rfl

theorem has_eq_of_standing (h : m.standing = m'.standing) {x : Modifier} (hx : x.isPlacing = true) :
    m.has x = m'.has x :=
  Modifiers.has_eq_of_placing (congrArg Standing.placing h) hx

/-- **The place of a member in a sorted list** rests on its standing. -/
theorem sortKey_eq_of_standing (h : m.standing = m'.standing) : m.sortKey = m'.sortKey := by
  have hlocation : m.location = m'.location := congrArg Standing.location h
  unfold sortKey
  rw [hlocation]
  refine congrArg (· ++ _) (List.map_congr_left fun x hx => ?_)
  rw [has_eq_of_standing h]
  revert hx
  cases x <;> decide

/-- Marks that place no member change no standing. -/
theorem standing_marked {f : Modifiers → Modifiers} (hf : ∀ ms, (f ms).placing = ms.placing) (m : Member) :
    ({ m with modifiers := f m.modifiers } : Member).standing = m.standing := by
  unfold standing
  rw [hf]

end Member

theorem Facts.Leveled.congr {f : Facts} {m m' : Member} (hm : f.Leveled m)
    (h : m'.standing = m.standing) : f.Leveled m' := by
  have hkind : m'.kind = m.kind := congrArg Standing.kind h
  have hraw : m'.raw = m.raw := congrArg Standing.raw h
  have hdeclaration : m'.declaration = m.declaration := congrArg Standing.declaration h
  have haccess := Member.access_eq_of_standing h
  unfold Leveled levelOf at hm ⊢
  rw [haccess, hm, hkind, hraw, hdeclaration]

/-- A copy carries the levels of its source. -/
theorem Adjust.access_apply (a : Adjust) (m : Member) :
    (a.apply m).modifiers.access = m.modifiers.access := by
  cases a with
  | asStatic parent id => exact Modifiers.access_insert rfl
  | asInherited base id => rfl
  | withRaw symbol => rfl

theorem Member.SingleLevel.congr {m m' : Member} (hm : m.SingleLevel)
    (h : m'.modifiers.access = m.modifiers.access) : m'.SingleLevel := by
  unfold SingleLevel
  rw [h]
  exact hm

namespace Build

/-- **The comment folded into a record gives it its level**, if it had none. -/
theorem access_document (d : DeclarationFacts) (flags : SymbolFlags) (comment : Comment)
    (name : String) {m : Member} (hm : m.modifiers.access = []) :
    (document d flags comment name m).modifiers.access =
      [lastLevel comment.tags (declaredAccess d name)] := by
  refine Member.access_applyTags_mark ?_ (isAccessibility_declaredAccess d name)
  show (writtenModifiers d flags m.modifiers).access = []
  unfold writtenModifiers
  rw [Modifiers.access_insertIf _ rfl, Modifiers.access_insertIf _ rfl,
    Modifiers.access_insertIf _ rfl, Modifiers.access_insertIf _ rfl, hm]

variable {cx : Context} {symbol : SymbolId} {declaration : Option DeclarationId} {kind : MemberKind}

theorem access_identify (m : Member) :
    (identify cx symbol declaration kind m).modifiers.access = m.modifiers.access := by
  unfold identify
  exact (Modifiers.access_insertIf _ rfl).trans (Modifiers.access_insertIf _ rfl)

theorem core_identify : (identify cx symbol declaration kind {}).core =
    { kind, id := cx.facts.symbolId symbol, raw := some symbol, declaration } := by
  cases declaration <;> rfl

/-- A record that is named and documented, all at once. -/
theorem core_described (comment : Comment) (d : DeclarationFacts) (flags : SymbolFlags) (name : String) :
    (document d flags comment name (identify cx symbol declaration kind {})).core =
      { kind, id := cx.facts.symbolId symbol, raw := some symbol, declaration, docs := comment.docs } := by
  rw [core_document _ _ _ _ rfl, core_identify]

theorem members_described (comment : Comment) (d : DeclarationFacts) (flags : SymbolFlags) (name : String)
    (m : Member) :
    (document d flags comment name (identify cx symbol declaration kind m)).members = m.members := by
  show (Member.applyTags _ comment.tags _).1.members = m.members
  rw [Member.retold_applyTags]
  rfl

/-- **A record whose name is no text** is given up without a level. -/
theorem leveled_identify (hname : ∀ name, cx.facts.givenName symbol declaration ≠ .str name) :
    cx.facts.Leveled (identify cx symbol declaration kind {}) := by
  have hdeclaration : (identify cx symbol declaration kind {}).declaration = declaration :=
    (Member.fields_of_core_eq core_identify).declaration
  have hlevel : cx.facts.levelOf (identify cx symbol declaration kind {}) = none := by
    refine Facts.levelOf_eq_none rfl fun name => ?_
    rw [hdeclaration]
    exact hname name
  unfold Facts.Leveled
  rw [hlevel, access_identify]
  decide

/-- **Any other gets its level with its comment.** -/
theorem leveled_described {name : String} (hname : cx.facts.givenName symbol declaration = .str name)
    (flags : SymbolFlags) :
    cx.facts.Leveled (document ((declaration.map cx.facts.declaration).getD {}) flags
      (cx.facts.commentOf kind symbol declaration) name (identify cx symbol declaration kind {})) := by
  generalize hm : document _ flags _ name _ = m
  have hcore : m.core = _ := hm ▸ core_described ..
  have hfields := Member.fields_of_core_eq hcore
  have hkind : m.kind = kind := hfields.kind
  have hraw : m.raw = some symbol := hfields.raw
  have hdeclaration : m.declaration = declaration := hfields.declaration
  have hlevel := Facts.levelOf_eq hraw (hdeclaration.symm ▸ hname)
  have hnone : (identify cx symbol declaration kind {}).modifiers.access = [] :=
    (access_identify {}).trans (by decide)
  unfold Facts.Leveled
  rw [hlevel, ← hm, access_document _ _ _ _ hnone, hm, hkind, hdeclaration]
  rfl

end Build

end ApiReference
