/-
  The records of a session.

  Between two steps, failed ones included, a reader may follow any link it finds: a record refers to
  registered records only, also one whose filling was cut off half way.  A record is found by the one
  key it was registered for, or by none.  And a member that has its name carries one level of
  visibility, the one that the facts give it; its copies carry the same.

  1. `Session.store` -- every record of a session is one of a sound store;
  2. links           -- where they lead, and what leads to a record;
  3. levels.
-/
import ApiReference.Proofs.Session
import Mathlib.Logic.Relation

namespace ApiReference.Session

variable {document : Value} {config : Option Value} {s : Session}

/-! ## 1. The store of a session -/

/-- **The store is sound**, also before the first use, when there is nothing in it. -/
theorem Valid.sound (hs : s.Valid) : s.store.Sound :=
  hs.of_rest (P := fun _ st => st.Sound) .empty fun _ _ hrest => hrest.sound

/-- The units that were built are there. -/
theorem Valid.hasUnits (hs : s.Valid) {us : List UnitHandle} (hus : s.units = some us) :
    ∀ u ∈ us, s.store.HasUnit u := by
  obtain ⟨w, hw, hin⟩ := hs.units us hus
  intro u hu
  unfold store
  rw [hw]
  exact hin u hu

/-! ## 2. Links -/

/-- **The model is closed under its own links.**  In every session that steps lead to, failed ones
    included, whatever a field of a member, type or unit record refers to is registered, the units that
    the session lists too; and every record is cached for exactly one key, or for none. -/
theorem links_registered (hs : Reachable document config s) :
    (∀ h, (s.store.member h).Refers s.store.toModel) ∧
    (∀ h, (s.store.type h).Refers s.store.toModel) ∧
    (∀ h, (s.store.unit h).Refers s.store.toModel) ∧
    (∀ us, s.units = some us → ∀ u ∈ us, s.store.HasUnit u) ∧
    (∀ h, s.store.members.CachedOnce h) ∧ (∀ h, s.store.types.CachedOnce h) ∧
    ∀ h, s.store.units.CachedOnce h := by
  have hsound := hs.valid.sound
  refine ⟨hsound.member, hsound.type, hsound.unit, fun us hus => hs.valid.hasUnits hus, ?_, ?_, ?_⟩
  · exact fun h => hsound.memberKeys.cachedOnce h
  · exact fun h => hsound.typeKeys.cachedOnce h
  · exact fun h => hsound.unitKeys.cachedOnce h

/-- A class one of whose properties is missing. -/
def brokenClassDocument : Value := .map [
  ("units", .list [.map [("name", .str "a"), ("symbol", .str "m")]]),
  ("declarations", .map [("d", .map [("kind", .str "ClassDeclaration")])]),
  ("symbols", .map [
    ("m", .map [("name", .str "m"), ("exports", .list [.str "x"])]),
    ("x", .map [("name", .str "x"), ("flags", .str "CLASS"), ("declarations", .list [.str "d"]),
      ("declaredType", .str "A")])]),
  ("types", .map [
    ("A", .map [("flags", .str "OBJECT"), ("objectFlags", .str "CLASS"), ("symbol", .str "x"),
      ("properties", .list [.null])])])]

/-- The filling of the class stops at the missing property; the class and its type are there, and lead
    to each other. -/
theorem links_registered_unfinished : ∃ s, Reachable brokenClassDocument none s ∧
    (s.store.member ⟨0⟩).declaredType = some ⟨0⟩ ∧ (s.store.member ⟨0⟩).members = some [] ∧
    s.store.HasType ⟨0⟩ ∧ s.store.HasMember ⟨0⟩ ∧
    ∀ k, s.store.members.find? k = some 0 ↔ k = some ⟨"x"⟩ := by
  have hcheck : (Session.start brokenClassDocument none).toOption.any (fun s =>
      let after := (step (.request (.member (.symbol "x")))).run s
      decide (after.1.toOption.isNone ∧
        (after.2.store.member ⟨0⟩).declaredType = some ⟨0⟩ ∧
        (after.2.store.member ⟨0⟩).members = some [] ∧
        (after.2.store.type ⟨0⟩).member = some ⟨0⟩ ∧
        after.2.store.members.keyAt 0 = some (some ⟨"x"⟩))) = true := by decide +kernel
  obtain ⟨s, hstart, hs⟩ := exists_start hcheck
  obtain ⟨-, hdeclared, hlisted, hmember, hkey⟩ := of_decide_eq_true hs
  have hreach : Reachable brokenClassDocument none _ :=
    .step (.request (.member (.symbol "x"))) (.start hstart)
  obtain ⟨hmembers, htypes, -, -, hcached, -⟩ := links_registered hreach
  refine ⟨_, hreach, hdeclared, hlisted, ?_, ?_, ?_⟩
  · exact (hmembers ⟨0⟩).declaredType ⟨0⟩ hdeclared
  · exact (htypes ⟨0⟩).member ⟨0⟩ hmember
  · rcases hcached 0 with ⟨k, hat, honly⟩ | ⟨hnone, -⟩
    · cases Option.some.inj (hat.symm.trans hkey)
      exact honly
    · rw [hkey] at hnone
      exact nomatch hnone

/-! ## 3. Levels -/

/-- **The levels of a session**, also before the first use. -/
theorem Valid.leveled (hs : s.Valid) : s.store.Leveled s.facts :=
  hs.of_rest (P := fun f st => st.Leveled f) .empty fun _ _ hrest => hrest.leveled

/-- Every copy is in step. -/
theorem Valid.synced (hs : s.Valid) : ∀ p ∈ s.store.copies, p.Synced s.store := by
  refine hs.of_rest (P := fun _ st => ∀ p ∈ st.copies, p.Synced st) (fun p hp => ?_)
    fun _ _ hrest => hrest.synced
  exact absurd hp List.not_mem_nil

/-- A filled member that is no copy has a symbol and, before its tags are read, a name that is a
    text. -/
theorem Reachable.named (hs : Reachable document config s) {h : MemberHandle}
    (hfilled : .member h ∈ s.store.filled) (horiginal : s.store.Original h) :
    ∃ symbol name, (s.store.member h).raw = some symbol ∧
      s.facts.givenName symbol (s.store.member h).declaration = .str name := by
  unfold store at hfilled horiginal ⊢
  cases hw : s.workspace with
  | none =>
    rw [hw] at hfilled
    exact absurd hfilled List.not_mem_nil
  | some w =>
    rw [hw] at hfilled horiginal
    dsimp only at hfilled horiginal ⊢
    obtain ⟨before, hdone⟩ := hs.done hw hfilled
    obtain ⟨symbol, overloaded, hdocumented⟩ := hdone horiginal
    obtain ⟨name, hname⟩ := hdocumented.named
    rw [(hs.valid.workspace w hw).facts] at hname
    exact ⟨symbol, name, hdocumented.raw, hname⟩

/-- One member was copied onto another. -/
def CopiedTo (s : Store) (x y : MemberHandle) : Prop := ∃ p ∈ s.copies, p.source = x ∧ p.target = y

/-- Copies of copies carry the level of the member that they come from. -/
theorem Valid.access_copied (hs : s.Valid) {x y : MemberHandle}
    (h : Relation.ReflTransGen (CopiedTo s.store) x y) :
    (s.store.member y).modifiers.access = (s.store.member x).modifiers.access := by
  induction h with
  | refl => rfl
  | tail _ hcopy ih =>
    obtain ⟨p, hp, rfl, rfl⟩ := hcopy
    rw [hs.synced p hp, Adjust.access_apply]
    exact ih

/-- **A member never has two levels of visibility, and the right source decides.**  In every session that
    steps lead to, failed ones included, no member has more than one.  Take a member that is no copy and
    has its symbol and a name, which is when the fields that all kinds share begin to be filled: it has
    exactly the level of the last tag of its comment that sets one, else what its declaration states, else
    what its name implies; and so has every copy of it, and every copy of a copy.  Every filled member
    that is no copy is such a member, and one that is not such a member has no level. -/
theorem levels_stated (hs : Reachable document config s) :
    (∀ h, (s.store.member h).modifiers.access.length ≤ 1) ∧
    (∀ x h symbol name, s.store.Original x → (s.store.member x).raw = some symbol →
      s.facts.givenName symbol (s.store.member x).declaration = .str name →
      Relation.ReflTransGen (CopiedTo s.store) x h →
      (s.store.member h).modifiers.access =
        [s.facts.level (s.store.member x).kind symbol (s.store.member x).declaration name]) ∧
    (∀ h, .member h ∈ s.store.filled → s.store.Original h → ∃ symbol name,
      (s.store.member h).raw = some symbol ∧
        s.facts.givenName symbol (s.store.member h).declaration = .str name) ∧
    ∀ h, s.store.Original h → (∀ symbol name, (s.store.member h).raw = some symbol →
        s.facts.givenName symbol (s.store.member h).declaration ≠ .str name) →
      (s.store.member h).modifiers.access = [] := by
  have hleveled := hs.valid.leveled
  refine ⟨hleveled.single, fun x h symbol name hx hraw hname hcopied => ?_, fun h => hs.named,
    fun h ho hnone => ?_⟩
  · have hlevel : s.facts.Leveled (s.store.member x) := hleveled.stated x hx
    rw [hs.valid.access_copied hcopied, hlevel, Facts.levelOf_eq hraw hname]
    rfl
  · have hlevel : s.facts.levelOf (s.store.member h) = none := by
      cases hraw : (s.store.member h).raw with
      | none =>
        unfold Facts.levelOf
        rw [hraw]
        rfl
      | some symbol => exact Facts.levelOf_eq_none hraw fun name => hnone symbol name hraw
    rw [hleveled.stated h ho, hlevel]
    rfl

/-- A protected class that two tags say is private and internal, with a property that is missing, and
    another name for it. -/
def taggedClassDocument : Value := .map [
  ("declarations", .map [
    ("d", .map [("kind", .str "ClassDeclaration"), ("modifiers", .list [.str "Protected"])]),
    ("e", .map [])]),
  ("symbols", .map [
    ("x", .map [("name", .str "x"), ("flags", .str "CLASS"), ("declarations", .list [.str "d"]),
      ("declaredType", .str "A"), ("tags", .list [.map [("name", .str "private")],
        .map [("name", .str "access"), ("text", .str " package ")], .map [("name", .str "beta")]])]),
    ("y", .map [("name", .str "y"), ("flags", .str "ALIAS"), ("declarations", .list [.str "e"]),
      ("aliasTarget", .str "x")])]),
  ("types", .map [
    ("A", .map [("flags", .str "OBJECT"), ("objectFlags", .str "CLASS"), ("symbol", .str "x"),
      ("properties", .list [.null])])])]

/-- The text of a given name. -/
def givenText : Value → Option String
  | .str text => some text
  | _ => none

theorem eq_of_givenText {v : Value} {text : String} (h : givenText v = some text) : v = .str text := by
  cases v with
  | str s => exact congrArg _ (Option.some.inj h)
  | _ => cases h

/-- The filling of the class stops at the missing property.  It has its level by then, and so has the
    copy that is made of it afterwards. -/
theorem levels_stated_unfinished : ∃ s, Reachable taggedClassDocument none s ∧
    .member ⟨0⟩ ∉ s.store.filled ∧ CopiedTo s.store ⟨0⟩ ⟨1⟩ ∧
    (s.store.member ⟨0⟩).modifiers.access = [.internal] ∧
    (s.store.member ⟨1⟩).modifiers.access = [.internal] := by
  have hcheck : (Session.start taggedClassDocument none).toOption.any (fun s =>
      let after := ((step (.request (.member (.symbol "y")))).run
        ((step (.request (.member (.symbol "x")))).run s).2).2
      (givenText (after.facts.givenName ⟨"x"⟩ (after.store.member ⟨0⟩).declaration)).any fun name =>
        decide (RecordHandle.member ⟨0⟩ ∉ after.store.filled ∧
          after.store.copies = [⟨⟨0⟩, ⟨1⟩, .withRaw ⟨"y"⟩⟩] ∧
          (after.store.member ⟨0⟩).raw = some ⟨"x"⟩ ∧
          after.facts.level (after.store.member ⟨0⟩).kind ⟨"x"⟩
            (after.store.member ⟨0⟩).declaration name = .internal)) = true := by decide +kernel
  obtain ⟨s, hstart, hs⟩ := exists_start hcheck
  generalize hafter : ((step (.request (.member (.symbol "y")))).run
    ((step (.request (.member (.symbol "x")))).run s).2).2 = t at hs
  have hreach : Reachable taggedClassDocument none t :=
    hafter ▸ .step (.request (.member (.symbol "y")))
      (.step (.request (.member (.symbol "x"))) (.start hstart))
  obtain ⟨name, hgiven, hfound⟩ := (Option.any_eq_true _ _).1 hs
  have hname := eq_of_givenText hgiven
  obtain ⟨hopen, hcopies, hraw, hlevel⟩ := of_decide_eq_true hfound
  have hcopied : CopiedTo t.store ⟨0⟩ ⟨1⟩ :=
    ⟨⟨⟨0⟩, ⟨1⟩, .withRaw ⟨"y"⟩⟩, by rw [hcopies]; exact List.mem_cons_self, rfl, rfl⟩
  have horiginal : t.store.Original ⟨0⟩ := by
    intro p hp
    rw [hcopies, List.mem_singleton] at hp
    rw [hp]
    decide
  obtain ⟨-, hstated, -, -⟩ := levels_stated hreach
  refine ⟨t, hreach, hopen, hcopied, ?_, ?_⟩
  · rw [hstated ⟨0⟩ ⟨0⟩ _ name horiginal hraw hname .refl, hlevel]
  · rw [hstated ⟨0⟩ ⟨1⟩ _ name horiginal hraw hname (.single hcopied), hlevel]

end ApiReference.Session
