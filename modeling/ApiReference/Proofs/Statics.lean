/-
  Static members, members of instances, and the links between them.

  What a member overrides is looked up by its name, and only private members are passed over.  So a
  static member is linked to a member of instances where both have one name, and the other way round.
  The side itself is right on both ends of a link: it is the one that the declaration states.

  1. `overrides_sides` -- the sides of a linked member and of the one it overrides;
  2. a class with a static member by the name of one that its base has in every instance.
-/
import ApiReference.Proofs.Session

namespace ApiReference

/-- **A record that has its level is static when it is declared so.** -/
theorem Facts.Sided.has_eq {f : Facts} {m : Member} (hm : f.Sided m) :
    m.has .static = (!m.modifiers.access.isEmpty && f.writtenStatic m.declaration) := by
  rw [Bool.eq_iff_iff, Bool.and_eq_true, Bool.not_eq_true', List.isEmpty_eq_false_iff]
  exact hm

namespace Session

variable {document : Value} {config : Option Value} {s : Session}

/-! ## 1. Sides -/

/-- **The sides of a session**, also before the first use. -/
theorem Valid.sided (hs : s.Valid) : s.store.Sided s.facts :=
  hs.of_rest (P := fun f st => st.Sided f) .empty fun _ _ hrest => hrest.sided

/-- **Both ends of a link are on the side that they are declared on.**  In every session that steps lead
    to, failed ones included, the record cached for a symbol links to a record that is cached for a symbol
    too.  It is static exactly when its declaration is written static; the other is static exactly when it
    has a level of visibility, which is given together with the side, and its declaration is written so.
    Thus both are static, or both are not, exactly when these agree. -/
theorem overrides_sides (hs : Reachable document config s) {symbol : SymbolId} {h l : MemberHandle}
    (hcached : s.store.IsMember (some symbol) h) (hlink : (s.store.member h).overrides = some l) :
    (∃ t, s.store.IsMember (some t) l) ∧
    (s.store.member h).has .static = s.facts.writtenStatic (s.store.member h).declaration ∧
    (s.store.member l).has .static = (!(s.store.member l).modifiers.access.isEmpty &&
      s.facts.writtenStatic (s.store.member l).declaration) ∧
    ((s.store.member h).has .static = (s.store.member l).has .static ↔
      s.facts.writtenStatic (s.store.member h).declaration =
        (!(s.store.member l).modifiers.access.isEmpty &&
          s.facts.writtenStatic (s.store.member l).declaration)) := by
  have hsided := hs.valid.sided
  have hplaced := hsided.placed h (Store.IsMember.keyed hcached)
  obtain ⟨haccess, t, ht⟩ := hplaced.link l hlink
  have hside := hplaced.side.has_eq
  -- a record that is linked has its level; for the one it is linked to nothing says so
  rw [List.isEmpty_eq_false_iff.2 haccess, Bool.not_false, Bool.true_and] at hside
  have hother := (hsided.placed l (Store.IsMember.keyed ht)).side.has_eq
  refine ⟨⟨t, ht⟩, hside, hother, ?_⟩
  rw [hside, hother]

/-! ## 2. One name on both sides -/

/-- A class with a static member, and its base with a member of instances by the same name. -/
def mixedSidesDocument : Value := .map [
  ("declarations", .map [
    ("s", .map [("kind", .str "PropertyDeclaration"), ("modifiers", .list [.str "Static"])]),
    ("i", .map [("kind", .str "PropertyDeclaration")]),
    ("c", .map [("kind", .str "ClassDeclaration")])]),
  ("symbols", .map [
    ("B", .map [("name", .str "B"), ("flags", .str "CLASS"), ("declarations", .list [.str "c"]),
      ("declaredType", .str "TB"), ("members", .map [("m", .str "bm")])]),
    ("D", .map [("name", .str "D"), ("flags", .str "CLASS"), ("declarations", .list [.str "c"]),
      ("declaredType", .str "TD"), ("type", .str "SD")]),
    ("bm", .map [("name", .str "m"), ("flags", .str "PROPERTY"), ("parent", .str "B"),
      ("declarations", .list [.str "i"])]),
    ("dm", .map [("name", .str "m"), ("flags", .str "PROPERTY"), ("parent", .str "D"),
      ("declarations", .list [.str "s"])])]),
  ("types", .map [
    ("TB", .map [("flags", .str "OBJECT"), ("objectFlags", .str "CLASS"), ("symbol", .str "B"),
      ("properties", .list [.str "bm"])]),
    ("TD", .map [("flags", .str "OBJECT"), ("objectFlags", .str "CLASS"), ("symbol", .str "D"),
      ("baseTypes", .list [.str "TB"])]),
    ("SD", .map [("flags", .str "OBJECT"), ("objectFlags", .str "ANONYMOUS"), ("symbol", .str "D"),
      ("properties", .list [.str "dm"])])])]

/-- The session in which the static member was asked for. -/
abbrev Mixed (s : Session) : Prop :=
  s.store.members.find? (some ⟨"dm"⟩) = some 0 ∧ (s.store.member ⟨0⟩).overrides = some ⟨3⟩ ∧
  (s.store.member ⟨0⟩).declaration = some ⟨"s"⟩ ∧ (s.store.member ⟨3⟩).declaration = some ⟨"i"⟩ ∧
  s.facts.writtenStatic (some ⟨"s"⟩) = true ∧ s.facts.writtenStatic (some ⟨"i"⟩) = false ∧
  (s.store.member ⟨0⟩).has .static = true ∧ (s.store.member ⟨3⟩).has .static = false

theorem exists_mixed : ∃ s, Reachable mixedSidesDocument none s ∧ Mixed s := by
  have hcheck : (Session.start mixedSidesDocument none).toOption.any (fun s =>
      decide (Mixed ((step (.request (.member (.symbol "dm")))).run s).2)) = true := by decide +kernel
  obtain ⟨s, hstart, hs⟩ := exists_start hcheck
  exact ⟨_, .step (.request (.member (.symbol "dm"))) (.start hstart), of_decide_eq_true hs⟩

/-- The static member is linked to the other, which no declaration makes static. -/
theorem overrides_sides_mixed : ∃ s h l, Reachable mixedSidesDocument none s ∧
    s.store.IsMember (some ⟨"dm"⟩) h ∧ (s.store.member h).overrides = some l ∧
    (∃ t, s.store.IsMember (some t) l) ∧ (s.store.member h).has .static ≠ (s.store.member l).has .static := by
  obtain ⟨s, hs, hcached, hlink, hhere, hthere, hstatic, hinstance, -, -⟩ := exists_mixed
  obtain ⟨hmember, -, -, hsame⟩ := overrides_sides hs (h := ⟨0⟩) hcached hlink
  refine ⟨s, ⟨0⟩, ⟨3⟩, hs, hcached, hlink, hmember, fun he => ?_⟩
  rw [hhere, hthere, hstatic, hinstance, Bool.and_false] at hsame
  exact nomatch hsame.1 he

/-- **A static member may be linked to one that is not static.** -/
theorem static_overrides_instance : ∃ s h l, Reachable mixedSidesDocument none s ∧
    s.store.IsMember (some ⟨"dm"⟩) h ∧ (s.store.member h).overrides = some l ∧
    (s.store.member h).has .static = true ∧ (s.store.member l).has .static = false := by
  obtain ⟨s, hs, hcached, hlink, -, -, -, -, hstatic, hinstance⟩ := exists_mixed
  exact ⟨s, ⟨0⟩, ⟨3⟩, hs, hcached, hlink, hstatic, hinstance⟩

end Session

end ApiReference
