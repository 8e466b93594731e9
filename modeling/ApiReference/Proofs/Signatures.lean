/-
  Functions that are assigned as values.

  Such a function is documented by a declaration without a signature of its own, and takes the signature
  that the record of its type has when the function is filled.  That is the signature of the type, if
  the type record was filled by then; it may be open, where one of its parameters leads to the function.

  1. `assigned_signatures`  -- the signature of a type that was filled before;
  2. `assigned_left_open`   -- a function that is met while its type is open.
-/
import ApiReference.Proofs.Session

namespace ApiReference.Session

variable {s : Session} {document : Value} {config : Option Value} {w : Workspace}

/-! ## 1. Types that were filled before -/

/-- **A function that is assigned as a value has the signature of its type.**  In every session, failed
    steps included, take a filled function that is no copy and whose declaration has no parameter list or
    no signature.  It stands for a symbol, and the type of the symbol has a record.  If that record was
    filled before the function, and is a function signature, then the function has its type parameters,
    its parameters and its return type; if it is none, the function has no parameters and returns that
    type. -/
theorem assigned_signatures (hs : Reachable document config s) (hw : s.workspace = some w)
    {h : MemberHandle} (hfilled : .member h ∈ w.store.filled) (horiginal : w.store.Original h)
    (hkind : (w.store.member h).kind.isFunction = true) {d : DeclarationId}
    (hd : (w.store.member h).declaration = some d) (hassigned : w.context.facts.Assigns d) :
    ∃ symbol t, (w.store.member h).raw = some symbol ∧
      w.store.IsType (some (w.context.facts.typeOfSymbol symbol)) t ∧
      (w.store.FilledBefore (.type t) (.member h) → (w.store.member h).Signed t (w.store.type t)) := by
  have hlogged : ∀ before, (.member h :: before) <:+ w.store.filled → ∃ symbol t,
      (w.store.member h).raw = some symbol ∧
      w.store.IsType (some (w.context.facts.typeOfSymbol symbol)) t ∧
      (.type t ∈ before → (w.store.member h).Signed t (w.store.type t)) := by
    intro before hentry
    have hdone := hs.logged hw hentry
    obtain ⟨symbol, overloaded, hcompleted⟩ := hdone horiginal
    obtain ⟨t, ht, hsigned⟩ := hcompleted.signed hkind d hd hassigned
    exact ⟨symbol, t, hcompleted.raw, ht, hsigned⟩
  -- The function stands in the log once as filled at all, and once as the entry after its type's: what the
  -- log says at the two agrees, as a symbol has one type and a type one record.
  obtain ⟨later, before, hsplit⟩ := List.append_of_mem hfilled
  obtain ⟨symbol, t, hraw, ht, -⟩ := hlogged before ⟨later, hsplit.symm⟩
  refine ⟨symbol, t, hraw, ht, ?_⟩
  rintro ⟨before', hentry, hmem⟩
  obtain ⟨symbol', t', hraw', ht', hsigned⟩ := hlogged before' hentry
  cases hraw.symm.trans hraw'
  cases ht.unique ht'
  exact hsigned hmem

/-- A function without a parameter list, whose type takes an object that has the function as a property. -/
def assignedDocument : Value := .map [
  ("declarations", .map [("d", .map [("parameters", .bool false)])]),
  ("signatures", .map [("s", .map [("parameters", .list [.str "p"]), ("returnType", .str "N")])]),
  ("symbols", .map [
    ("f", .map [("name", .str "f"), ("flags", .str "FUNCTION"), ("declarations", .list [.str "d"]),
      ("type", .str "T")]),
    ("p", .map [("name", .str "p"), ("type", .str "P")])]),
  ("types", .map [
    ("T", .map [("flags", .str "OBJECT"), ("objectFlags", .str "ANONYMOUS"),
      ("callSignatures", .list [.str "s"])]),
    ("P", .map [("flags", .str "OBJECT"), ("objectFlags", .str "ANONYMOUS"),
      ("properties", .list [.str "f"])]),
    ("N", .map [("flags", .str "NUMBER")])])]

/-- What is found of the function, its declaration and the record of its type. -/
abbrev Assigned (w : Workspace) : Prop :=
  w.store.copies = [] ∧ (w.store.member ⟨0⟩).kind = .function ∧
  (w.store.member ⟨0⟩).raw = some ⟨"f"⟩ ∧ (w.store.member ⟨0⟩).declaration = some ⟨"d"⟩ ∧
  (w.context.facts.declaration ⟨"d"⟩).hasParameters = false ∧
  w.context.facts.typeOfSymbol ⟨"f"⟩ = .known ⟨"T"⟩ ∧
  w.store.members.find? (some ⟨"f"⟩) = some 0 ∧ w.store.types.find? (some (.known ⟨"T"⟩)) = some 0 ∧
  (w.store.type ⟨0⟩).kind = .functionSignature ∧ (w.store.type ⟨0⟩).returnType.isSome = true

/-- Both the function and its type can be asked for first. -/
theorem exists_assigned : ∃ s, Session.start assignedDocument none = .ok s ∧
    s.finds (.request (.member (.symbol "f"))) (fun w => decide (Assigned w ∧
      w.store.filled.head? = some (.member ⟨0⟩) ∧ .type ⟨0⟩ ∈ w.store.filled.tail)) = true ∧
    s.finds (.request (.type (.type "T"))) (fun w => decide (Assigned w ∧
      .member ⟨0⟩ ∈ w.store.filled ∧ (w.store.member ⟨0⟩).returnType.isSome = false)) = true := by
  have hcheck : (Session.start assignedDocument none).toOption.any (fun s =>
      s.finds (.request (.member (.symbol "f"))) (fun w => decide (Assigned w ∧
        w.store.filled.head? = some (.member ⟨0⟩) ∧ .type ⟨0⟩ ∈ w.store.filled.tail)) &&
      s.finds (.request (.type (.type "T"))) (fun w => decide (Assigned w ∧
        .member ⟨0⟩ ∈ w.store.filled ∧ (w.store.member ⟨0⟩).returnType.isSome = false))) = true := by
    decide +kernel
  obtain ⟨s, hstart, hs⟩ := exists_start hcheck
  exact ⟨s, hstart, Bool.and_eq_true_iff.1 hs⟩

/-- Asked for the function, its type is filled before it, and the function has its parameter and what it
    returns. -/
theorem assigned_signatures_filled : ∃ s w, Reachable assignedDocument none s ∧ s.workspace = some w ∧
    .member ⟨0⟩ ∈ w.store.filled ∧ w.store.Original ⟨0⟩ ∧
    (w.store.member ⟨0⟩).kind.isFunction = true ∧ (w.store.member ⟨0⟩).declaration = some ⟨"d"⟩ ∧
    w.context.facts.Assigns ⟨"d"⟩ ∧ w.store.IsType (some (.known ⟨"T"⟩)) ⟨0⟩ ∧
    w.store.FilledBefore (.type ⟨0⟩) (.member ⟨0⟩) ∧
    (w.store.type ⟨0⟩).kind = .functionSignature ∧
    (w.store.member ⟨0⟩).Signed ⟨0⟩ (w.store.type ⟨0⟩) := by
  obtain ⟨_, hstart, hfinds, -⟩ := exists_assigned
  obtain ⟨s, w, hs, hw, hfound⟩ := exists_of_finds hstart hfinds
  obtain ⟨⟨hcopies, hkind, hraw, hd, hassigned, hof, -, ht, hsignature, -⟩, hlast, hearlier⟩ :=
    of_decide_eq_true hfound
  have hfilled : .member ⟨0⟩ ∈ w.store.filled := List.mem_of_mem_head? hlast
  have hfunction : (w.store.member ⟨0⟩).kind.isFunction = true := by
    rw [hkind]
    rfl
  have hbefore : w.store.FilledBefore (.type ⟨0⟩) (.member ⟨0⟩) :=
    Store.filledBefore_last hlast hearlier
  obtain ⟨symbol, t, hsymbol, htype, hsigned⟩ := assigned_signatures hs.reachable hw hfilled
    (.of_nil hcopies) hfunction hd (.inl hassigned)
  cases hraw.symm.trans hsymbol
  rw [hof] at htype
  cases htype.unique ht
  exact ⟨s, w, hs.reachable, hw, hfilled, .of_nil hcopies, hfunction, hd, .inl hassigned, ht, hbefore,
    hsignature, hsigned hbefore⟩

/-! ## 2. Types that are open -/

/-- **Asked for the type, the function is filled while the type is open**, and stays without the
    signature, though no step failed. -/
theorem assigned_left_open : ∃ s w, Unfailing assignedDocument none s ∧ s.workspace = some w ∧
    w.store.IsMember (some ⟨"f"⟩) ⟨0⟩ ∧ (w.store.member ⟨0⟩).kind.isFunction = true ∧
    .member ⟨0⟩ ∈ w.store.filled ∧ w.store.Original ⟨0⟩ ∧
    (w.store.member ⟨0⟩).declaration = some ⟨"d"⟩ ∧ w.context.facts.Assigns ⟨"d"⟩ ∧
    w.store.IsType (some (w.context.facts.typeOfSymbol ⟨"f"⟩)) ⟨0⟩ ∧
    (w.store.type ⟨0⟩).kind = .functionSignature ∧
    (w.store.member ⟨0⟩).returnType ≠ (w.store.type ⟨0⟩).returnType := by
  obtain ⟨_, hstart, -, hfinds⟩ := exists_assigned
  obtain ⟨s, w, hs, hw, hfound⟩ := exists_of_finds hstart hfinds
  obtain ⟨⟨hcopies, hkind, -, hd, hassigned, hof, hmember, ht, hsignature, hset⟩, hfilled, hunset⟩ :=
    of_decide_eq_true hfound
  have hfunction : (w.store.member ⟨0⟩).kind.isFunction = true := by
    rw [hkind]
    rfl
  refine ⟨s, w, hs, hw, hmember, hfunction, hfilled, .of_nil hcopies, hd, .inl hassigned, ?_, hsignature,
    fun he => ?_⟩
  · rw [hof]
    exact ht
  · rw [he, hset] at hunset
    cases hunset

end ApiReference.Session
