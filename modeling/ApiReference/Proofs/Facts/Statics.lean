/-
  The static side of a member, read off the facts.

  A record becomes static with its level, when the declaration that documents it is written static; no
  tag makes it so.  Links are set afterwards, so a record that is described for the first time has none.

  1. `Facts.Sided`       -- static exactly when it has a level and its declaration is written static;
  2. `Facts.Described`   -- what naming a record and folding its comment into it leave.
-/
import ApiReference.Proofs.Model.Tags

namespace ApiReference

/-! ## 1. Sides -/

/-- A set has what it had, and what was inserted if the condition holds. -/
theorem Modifiers.has_insertIf (s : Modifiers) (p : Bool) (x y : Modifier) :
    (s.insertIf p x).has y = (s.has y || (p && decide (x = y))) := by
  cases p with
  | false => exact (Bool.or_false _).symm
  | true => exact has_insert s x y

namespace Facts

variable (f : Facts)

/-- Is a declaration written static? -/
def writtenStatic (declaration : Option DeclarationId) : Bool :=
  ((declaration.map f.declaration).getD {}).modifiers.meets SyntaxFlags.statics

/-- **A record on its side**: it is static exactly when it has a level and the declaration that documents
    it is written static. -/
def Sided (m : Member) : Prop :=
  m.has .static = true ↔ m.modifiers.access ≠ [] ∧ f.writtenStatic m.declaration = true

variable {f}

theorem sided_empty : f.Sided {} := by
  have hstatic : ({} : Member).has .static = false := by decide
  have haccess : ({} : Member).modifiers.access = [] := by decide
  unfold Sided
  rw [hstatic, haccess]
  exact ⟨nofun, fun h => absurd rfl h.1⟩

/-- The side of a record rests on its standing. -/
theorem Sided.congr {m m' : Member} (hm : f.Sided m) (h : m'.standing = m.standing) : f.Sided m' := by
  have hstatic : m'.has .static = m.has .static := Member.has_eq_of_standing h rfl
  have hdeclaration : m'.declaration = m.declaration := congrArg Standing.declaration h
  unfold Sided
  rw [hstatic, hdeclaration, Member.access_eq_of_standing h]
  exact hm

end Facts

/-! ## 2. Described records -/

/-- **A record that was just described**: it has the level and the side that the facts give it, and
    overrides nothing so far. -/
structure Facts.Described (f : Facts) (m : Member) : Prop where
  leveled : f.Leveled m
  sided : f.Sided m
  unlinked : m.overrides = none

theorem Tag.mark?_ne_static (tag : Tag) : tag.mark? ≠ some .static := by
  unfold Tag.mark?
  split <;> nofun

/-- No tag moves a record to the static side. -/
theorem Member.has_static_applyTags (m : Member) (tags : List Tag) (a : Modifier) :
    (m.applyTags tags a).1.has .static = m.has .static := by
  have hnone : (tags.any fun tag => tag.mark? = some .static) = false :=
    List.any_eq_false.2 fun tag _ => by simp [Tag.mark?_ne_static]
  rw [applyTags_eq, has, modifiers_foldl, has_marks, hnone, Bool.or_false]
  rfl

namespace Build

variable {cx : Context} {symbol : SymbolId} {declaration : Option DeclarationId} {kind : MemberKind}

theorem has_static_identify : (identify cx symbol declaration kind {}).has .static = false := by
  show ((Modifiers.insertIf ∅ _ .export_).insertIf _ .exportDefault).has .static = false
  rw [Modifiers.has_insertIf, Modifiers.has_insertIf, decide_eq_false (by decide),
    decide_eq_false (by decide), Bool.and_false, Bool.and_false]
  decide

/-- **The comment folded into a record** puts it on the side that its declaration states. -/
theorem has_static_document (d : DeclarationFacts) (flags : SymbolFlags) (comment : Comment) (name : String)
    {m : Member} (hm : m.has .static = false) :
    (document d flags comment name m).has .static = d.modifiers.meets SyntaxFlags.statics := by
  have hwritten : (writtenModifiers d flags m.modifiers).has .static =
      d.modifiers.meets SyntaxFlags.statics := by
    simp only [writtenModifiers, Modifiers.has_insertIf, show m.modifiers.has .static = false from hm]
    simp
  unfold document
  dsimp only
  generalize hfold : Member.applyTags _ comment.tags _ = folded
  -- what is inserted after the tags is a level, so no side
  have hlevel : folded.2 ≠ .static := by
    rw [← hfold, (Member.level_applyTags _ _ _).1]
    intro he
    have haccess : (lastLevel comment.tags (declaredAccess d name)).isAccessibility = true :=
      isAccessibility_lastLevel (isAccessibility_declaredAccess d name)
    rw [he] at haccess
    exact nomatch haccess
  show (folded.1.modifiers.insert folded.2).has .static = _
  rw [Modifiers.has_insert, decide_eq_false hlevel, Bool.or_false, ← hwritten]
  exact hfold ▸ Member.has_static_applyTags _ comment.tags _

/-- A record whose name is no text is given up as it is. -/
theorem described_identify (hname : ∀ name, cx.facts.givenName symbol declaration ≠ .str name) :
    cx.facts.Described (identify cx symbol declaration kind {}) where
  leveled := leveled_identify hname
  sided := by
    have haccess : (identify cx symbol declaration kind {}).modifiers.access = [] :=
      (access_identify {}).trans (by decide)
    unfold Facts.Sided
    rw [has_static_identify, haccess]
    exact ⟨nofun, fun h => absurd rfl h.1⟩
  unlinked := rfl

/-- **Any other has its level and its side with its comment.** -/
theorem described_document {name : String} (hname : cx.facts.givenName symbol declaration = .str name)
    (flags : SymbolFlags) :
    cx.facts.Described (document ((declaration.map cx.facts.declaration).getD {}) flags
      (cx.facts.commentOf kind symbol declaration) name (identify cx symbol declaration kind {})) := by
  have hnone : (identify cx symbol declaration kind {}).modifiers.access = [] :=
    (access_identify {}).trans (by decide)
  refine ⟨leveled_described hname flags, ?_, ?_⟩
  · generalize hm : document _ flags _ name _ = m
    have hcore : m.core = _ := hm ▸ core_described ..
    have hdeclaration : m.declaration = declaration := (Member.fields_of_core_eq hcore).declaration
    unfold Facts.Sided
    rw [hdeclaration, ← hm, has_static_document _ _ _ _ has_static_identify, access_document _ _ _ _ hnone]
    exact ⟨fun h => ⟨List.cons_ne_nil _ _, h⟩, And.right⟩
  · generalize hm : document _ flags _ name _ = m
    have hcore : m.core = _ := hm ▸ core_described ..
    exact (Member.fields_of_core_eq hcore).overrides

end Build

end ApiReference
