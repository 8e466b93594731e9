/-
  What a type record is written as.

  A record spells a tree if it has the kind of the tree and its parts spell the parts.  Where nothing is
  folded, its text is what the tree is written as; so two records with one text spell one tree, if both
  trees are legible.  Of others this cannot be said.

  1. `Spells`            -- records and trees;
  2. `Shows`             -- tokens with the text of words and marks;
  3. `Prints`            -- layouts with the text of words and marks;
  4. `Spells.shown`      -- the text of a record is that of its tree;
  5. `text_determines_tree` -- records with one text.
-/
import ApiReference.Proofs.Render.Cycles
import ApiReference.Proofs.Render.Reader

namespace ApiReference

open Lexeme Token

/-! ## 1. Records and trees -/

/-- The parameter of a record, beside the parameter of a tree. -/
structure Parameter.Is (p : Parameter) (q : ParameterOf (TypeHandle × TypeTree)) : Prop where
  name : p.name = .str q.name
  rest : p.rest = q.rest
  optional : p.optional = q.optional
  type : p.type = some q.type.1

/-- The type parameter of a record, beside the type parameter of a tree. -/
structure TypeParameter.Is (p : TypeParameter) (g : GenericOf (TypeHandle × TypeTree)) : Prop where
  name : p.name = g.name
  constraint : p.constraint = g.constraint.map Prod.fst
  default : p.default = g.default.map Prod.fst

/-- **The record has the shape of the tree.**  The branches of a conditional are resolved. -/
inductive Spells (m : Model) : TypeHandle → TypeTree → Prop
  | native {h : TypeHandle} {name : String} : (m.type h).kind = .native →
      (m.type h).name = some name → Spells m h (.native name)
  | array {h e : TypeHandle} {t : TypeTree} : (m.type h).kind = .array →
      (m.type h).element = some e → Spells m e t → Spells m h (.array t)
  | tuple {h : TypeHandle} {es : List (TypeHandle × TypeTree)} : (m.type h).kind = .tuple →
      (m.type h).elements.getD [] = es.map (fun e => some e.1) → (∀ e ∈ es, Spells m e.1 e.2) →
      Spells m h (.tuple (es.map Prod.snd))
  | keyOf {h e : TypeHandle} {t : TypeTree} : (m.type h).kind = .keyOf →
      (m.type h).target = some e → Spells m e t → Spells m h (.keyOf t)
  | indexedAccess {h e k : TypeHandle} {t t' : TypeTree} : (m.type h).kind = .indexedAccess →
      (m.type h).target = some e → (m.type h).key = some k → Spells m e t → Spells m k t' →
      Spells m h (.indexedAccess t t')
  | union {h : TypeHandle} {es : List (TypeHandle × TypeTree)} : (m.type h).kind = .union →
      (m.type h).operands.getD [] = es.map (fun e => some e.1) → (∀ e ∈ es, Spells m e.1 e.2) →
      Spells m h (.union (es.map Prod.snd))
  | intersection {h : TypeHandle} {es : List (TypeHandle × TypeTree)} :
      (m.type h).kind = .intersection → (m.type h).operands.getD [] = es.map (fun e => some e.1) →
      (∀ e ∈ es, Spells m e.1 e.2) → Spells m h (.intersection (es.map Prod.snd))
  | conditional {h c e y n : TypeHandle} {tc te ty tn : TypeTree} :
      (m.type h).kind = .conditional → (m.type h).checkType = some c →
      (m.type h).extendsType = some e → (m.type h).resolved = some (some y, some n) →
      Spells m c tc → Spells m e te → Spells m y ty → Spells m n tn →
      Spells m h (.conditional tc te ty tn)
  | function {h r : TypeHandle} {gs : List (GenericOf (TypeHandle × TypeTree))}
      {ps : List (ParameterOf (TypeHandle × TypeTree))} {t : TypeTree} :
      (m.type h).kind = .functionSignature →
      ((m.type h).typeParameters.getD []).Forall₂ TypeParameter.Is gs →
      ((m.type h).parameters.getD []).Forall₂ Parameter.Is ps → (m.type h).returnType = some r →
      (∀ g ∈ gs, ∀ e ∈ g.constraint, Spells m e.1 e.2) →
      (∀ g ∈ gs, ∀ e ∈ g.default, Spells m e.1 e.2) →
      (∀ p ∈ ps, Spells m p.type.1 p.type.2) → Spells m r t →
      Spells m h (.function (gs.map (GenericOf.map Prod.snd)) (ps.map (ParameterOf.map Prod.snd)) t)
  | constructor {h r : TypeHandle} {ps : List (ParameterOf (TypeHandle × TypeTree))} {t : TypeTree} :
      (m.type h).kind = .constructorSignature →
      ((m.type h).parameters.getD []).Forall₂ Parameter.Is ps → (m.type h).returnType = some r →
      (∀ p ∈ ps, Spells m p.type.1 p.type.2) → Spells m r t →
      Spells m h (.constructor (ps.map (ParameterOf.map Prod.snd)) t)

/-- A union of two operands. -/
theorem Spells.union_two {m : Model} {h e f : TypeHandle} {t u : TypeTree}
    (hk : (m.type h).kind = .union) (ho : (m.type h).operands = some [some e, some f])
    (he : Spells m e t) (hf : Spells m f u) : Spells m h (.union [t, u]) :=
  @Spells.union m h [(e, t), (f, u)] hk (by rw [ho]; rfl) (by simp [he, hf])

/-- An intersection of two operands. -/
theorem Spells.intersection_two {m : Model} {h e f : TypeHandle} {t u : TypeTree}
    (hk : (m.type h).kind = .intersection) (ho : (m.type h).operands = some [some e, some f])
    (he : Spells m e t) (hf : Spells m f u) : Spells m h (.intersection [t, u]) :=
  @Spells.intersection m h [(e, t), (f, u)] hk (by rw [ho]; rfl) (by simp [he, hf])

/-- A function without parameters. -/
theorem Spells.function_nil {m : Model} {h r : TypeHandle} {t : TypeTree}
    (hk : (m.type h).kind = .functionSignature) (hgs : (m.type h).typeParameters = none)
    (hps : (m.type h).parameters = none) (hr : (m.type h).returnType = some r)
    (hs : Spells m r t) : Spells m h (.function [] [] t) :=
  @Spells.function m h r [] [] t hk (by rw [hgs]; exact .nil) (by rw [hps]; exact .nil) hr nofun nofun
    nofun hs

/-- A constructor without parameters. -/
theorem Spells.constructor_nil {m : Model} {h r : TypeHandle} {t : TypeTree}
    (hk : (m.type h).kind = .constructorSignature) (hps : (m.type h).parameters = none)
    (hr : (m.type h).returnType = some r) (hs : Spells m r t) :
    Spells m h (.constructor [] t) :=
  @Spells.constructor m h r [] t hk (by rw [hps]; exact .nil) hr nofun hs

/-! ## 2. Tokens -/

theorem visibleText_append {ts us : List Token} {a b : String} (h : visibleText ts = .ok a)
    (h' : visibleText us = .ok b) : visibleText (ts ++ us) = .ok (a ++ b) := by
  induction ts generalizing a with
  | nil =>
    cases h
    rw [List.nil_append, h', String.empty_append]
  | cons t ts ih =>
    rw [visibleText] at h
    rw [List.cons_append, visibleText]
    cases ht : t.text with
    | str s =>
      rw [ht] at h
      cases hts : visibleText ts with
      | error f =>
        rw [hts] at h
        cases h
      | ok c =>
        rw [hts] at h
        cases h
        show (do return s ++ (← visibleText (ts ++ us)) : Except Fault String) = _
        rw [ih hts, String.append_assoc]
        rfl
    | _ =>
      rw [ht] at h
      cases h

/-- **Tokens with the text of words and marks.**  No token shows more than two of them. -/
structure Shows (ts : List Token) (ls : List Lexeme) : Prop where
  text : visibleText ts = .ok (String.ofList (charsOf ls))
  length : ls.length ≤ 2 * ts.length

namespace Shows

variable {ts us : List Token} {ls ls' : List Lexeme}

theorem nil : Shows [] [] := ⟨rfl, Nat.le_refl _⟩

theorem append (h : Shows ts ls) (h' : Shows us ls') : Shows (ts ++ us) (ls ++ ls') := by
  refine ⟨?_, ?_⟩
  · rw [charsOf_append, String.ofList_append]
    exact visibleText_append h.text h'.text
  · have hlength := h.length
    have hlength' := h'.length
    simp only [List.length_append]
    omega

/-- A token on its own. -/
theorem single {t : Token} (ht : t.text = .str (String.ofList (charsOf ls))) (hls : ls.length ≤ 2) :
    Shows [t] ls := by
  refine ⟨?_, hls⟩
  rw [visibleText, ht]
  show Except.ok (String.ofList (charsOf ls) ++ "") = _
  rw [String.append_empty]

theorem punct (l : Lexeme) : Shows [Token.punct (String.ofList l.chars)] [l] := by
  refine single ?_ (Nat.le_succ 1)
  rw [charsOf_cons, charsOf_nil, List.append_nil]
  rfl

theorem joinWith (l : Lexeme) {es : List (List Token)} {Ls : List (List Lexeme)}
    (h : es.Forall₂ Shows Ls) :
    Shows (ApiReference.joinWith (String.ofList l.chars) es) (joined l Ls) := by
  induction h with
  | nil => exact nil
  | @cons e L es Ls hfirst hrest ih =>
    by_cases hes : es = []
    · subst hes
      cases hrest
      rwa [joined_singleton]
    · have hLs : Ls ≠ [] := by
        rintro rfl
        cases hrest
        exact hes rfl
      rw [joinWith_cons _ _ hes, joined_cons _ _ hLs]
      exact hfirst.append ((punct l).append ih)

theorem parenthesize (h : Shows ts ls) (hlong : 3 ≤ ls.length) :
    Shows (ApiReference.parenthesize ts) (enclosed ls) := by
  have hlength := h.length
  have hmany : ApiReference.parenthesize ts = Token.punct "(" :: (ts ++ [Token.punct ")"]) := by
    rcases ts with _ | ⟨t, _ | ⟨u, us⟩⟩
    · rfl
    · rw [List.length_singleton] at hlength
      omega
    · rfl
  rw [hmany]
  exact (punct .leftParen).append (h.append (punct .rightParen))

end Shows

/-! ## 3. Layouts -/

/-- **A layout with the text of words and marks**, where `S` says what its parts are written as. -/
structure Prints (S : Option TypeHandle → List Lexeme → Prop) (x : Layout) (ls : List Lexeme) :
    Prop where
  parts : ∀ p, .part p ∈ x.leaves → ∃ ls, S p ls
  shown : ∀ W : Option TypeHandle → Rendering (List Token),
    (∀ p, .part p ∈ x.leaves → ∀ ls, S p ls → ∀ ts, W p = .ok ts → Shows ts ls) →
    ∀ ts, x.render .whole W = .ok ts → Shows ts ls

namespace Prints

open Layout

variable {S : Option TypeHandle → List Lexeme → Prop} {x : Layout} {xs ys : List Layout}
  {ls ls' : List Lexeme} {Ls : List (List Lexeme)}

theorem own {kind : TokenKind} {text : Value} {member : Option MemberHandle}
    (htext : text = .str (String.ofList (charsOf ls))) (hls : ls.length ≤ 2) :
    Prints S (.own kind text member) ls where
  parts p hp := by cases List.mem_singleton.1 hp
  shown W _ ts hts := by
    cases hts
    exact .single htext hls

theorem mark {kind : TokenKind} (l : Lexeme) : Prints S (plain kind (String.ofList l.chars)) [l] :=
  own (by rw [charsOf_cons, charsOf_nil, List.append_nil]) (Nat.le_succ 1)

theorem word {kind : TokenKind} {text : Value} {member : Option MemberHandle} {name : String}
    (htext : text = .str name) : Prints S (.own kind text member) [.word name] :=
  own (by rw [htext, charsOf_cons, charsOf_nil, List.append_nil, chars, String.ofList_toList])
    (Nat.le_succ 1)

theorem part {p : Option TypeHandle} (hp : S p ls) : Prints S (.part p) ls where
  parts q hq := by
    cases List.mem_singleton.1 hq
    exact ⟨ls, hp⟩
  shown W hW ts hts := hW p List.mem_cons_self ls hp ts hts

/-- What is shown of the entries of a list. -/
theorem entries {joint : Joint} (h : xs.Forall₂ (Prints S) Ls)
    (hjoin : ∀ es : List (List Token), es.Forall₂ Shows Ls → Shows (joint.join .whole es) ls) :
    Prints S (.list joint xs) ls where
  parts p hp := by
    rw [leaves_list] at hp
    clear hjoin
    induction h with
    | nil => cases hp
    | cons hfirst _ ih =>
      rcases List.mem_append.1 hp with hp | hp
      · exact hfirst.parts p hp
      · exact ih hp
  shown W hW ts hts := by
    obtain ⟨es, hes, rfl⟩ := render_list_eq_ok.1 hts
    refine hjoin es ?_
    rw [leaves_list] at hW
    clear hjoin hts
    induction h generalizing es with
    | nil =>
      cases hes
      exact .nil
    | cons hfirst _ ih =>
      cases hes with
      | cons he hes =>
        refine .cons ?_ (ih (fun p hp => hW p (List.mem_append_right _ hp)) _ hes)
        exact hfirst.shown W (fun p hp => hW p (List.mem_append_left _ hp)) _ he

theorem apart (l : Lexeme) (h : xs.Forall₂ (Prints S) Ls) :
    Prints S (.list (.apart (String.ofList l.chars)) xs) (joined l Ls) :=
  entries h fun _ hes => .joinWith l hes

theorem limited (l : Lexeme) (h : xs.Forall₂ (Prints S) Ls) :
    Prints S (.list (.limited (String.ofList l.chars)) xs) (joined l Ls) :=
  entries h fun _ hes => .joinWith l hes

theorem signature (h : Prints S x ls) : Prints S (.signature x) ls where
  parts := h.parts
  shown W hW ts hts := by
    obtain ⟨us, hus, rfl⟩ := render_signature_eq_ok.1 hts
    exact h.shown W hW us hus

theorem enclosed (h : Prints S x ls) (hlong : 3 ≤ ls.length) : Prints S (.enclosed x) (enclosed ls) where
  parts := h.parts
  shown W hW ts hts := by
    obtain ⟨us, hus, rfl⟩ := render_enclosed_eq_ok.1 hts
    exact (h.shown W hW us hus).parenthesize hlong

end Prints

/-- **Layouts one after the other**, with the text of words and marks. -/
def PrintsAll (S : Option TypeHandle → List Lexeme → Prop) (xs : List Layout) (ls : List Lexeme) : Prop :=
  ∃ Ls, xs.Forall₂ (Prints S) Ls ∧ Ls.flatten = ls

namespace PrintsAll

open Layout

variable {S : Option TypeHandle → List Lexeme → Prop} {x : Layout} {xs ys : List Layout}
  {ls ls' : List Lexeme}

theorem nil : PrintsAll S [] [] := ⟨[], .nil, rfl⟩

theorem cons (h : Prints S x ls) (h' : PrintsAll S xs ls') : PrintsAll S (x :: xs) (ls ++ ls') := by
  obtain ⟨Ls, hLs, rfl⟩ := h'
  exact ⟨ls :: Ls, .cons h hLs, rfl⟩

theorem last (h : Prints S x ls) : PrintsAll S [x] ls := ⟨[ls], .cons h .nil, List.append_nil ls⟩

theorem append (h : PrintsAll S xs ls) (h' : PrintsAll S ys ls') : PrintsAll S (xs ++ ys) (ls ++ ls') := by
  obtain ⟨Ls, hLs, rfl⟩ := h
  obtain ⟨Ls', hLs', rfl⟩ := h'
  exact ⟨Ls ++ Ls', List.rel_append hLs hLs', List.flatten_append⟩

/-- A mark that may stand there. -/
theorem ifMark (b : Bool) (kind : TokenKind) (l : Lexeme) :
    PrintsAll S (if b then [plain kind (String.ofList l.chars)] else []) (if b then [l] else []) := by
  cases b with
  | false => exact nil
  | true => exact last (.mark l)

theorem seq (h : PrintsAll S xs ls) : Prints S (seq xs) ls := by
  obtain ⟨Ls, hLs, rfl⟩ := h
  refine .entries hLs fun es hes => ?_
  show Shows es.flatten Ls.flatten
  clear hLs
  induction hes with
  | nil => exact .nil
  | cons he _ ih => exact he.append ih

/-- A part that may be missing, behind its mark. -/
theorem optionalPart {kind : TokenKind} (l : Lexeme) {o : Option TypeHandle}
    {L : Option (List Lexeme)} (h : Option.Rel (fun h ls => S (some h) ls) o L) :
    PrintsAll S (optionalPart (plain kind (String.ofList l.chars)) o) (after l L) := by
  cases h with
  | none => exact nil
  | some h => exact cons (.mark l) (last (.part h))

end PrintsAll

/-! ### Records -/

section Records

open Layout

variable {S : Option TypeHandle → List Lexeme → Prop} {m : Model}

/-- One parameter of a signature. -/
theorem prints_parameter {p : Parameter} {q : ParameterOf (TypeHandle × TypeTree)} (h : p.Is q)
    (hS : S (some q.type.1) q.type.2.lexemes) :
    Prints S (parameter p) ((q.map Prod.snd).map TypeTree.lexemes).lexemes := by
  obtain ⟨hname, hrest, hoptional, htype⟩ := h
  have hword : Prints S (.own .property p.name none) [.word q.name] := .word hname
  have htyped : PrintsAll S [punct ": ", .part p.type] (.colon :: q.type.2.lexemes) :=
    .cons (.mark .colon) (.last (.part (htype ▸ hS)))
  have hrun := (((PrintsAll.ifMark p.rest .punctuation .dots).append (.last hword)).append
    (.ifMark p.optional .operator .mayMiss)).append htyped
  rw [hrest, hoptional] at hrun
  have hlexemes : ((q.map Prod.snd).map TypeTree.lexemes).lexemes =
      (if q.rest then [.dots] else []) ++ [.word q.name] ++ (if q.optional then [.mayMiss] else []) ++
        .colon :: q.type.2.lexemes := by
    obtain ⟨name, rest, optional, type⟩ := q
    cases rest <;> cases optional <;> rfl
  unfold parameter
  rw [hlexemes, hrest, hoptional]
  exact hrun.seq

/-- The parameters of a signature. -/
theorem prints_parameters {ps : List Parameter} {qs : List (ParameterOf (TypeHandle × TypeTree))}
    (h : ps.Forall₂ Parameter.Is qs) (hS : ∀ q ∈ qs, S (some q.type.1) q.type.2.lexemes) :
    Prints S (parameters ps)
      (parameterList (TypeTree.parameters (qs.map (ParameterOf.map Prod.snd)))) := by
  have hlist : (ps.map parameter).Forall₂ (Prints S)
      (TypeTree.parameters (qs.map (ParameterOf.map Prod.snd))) := by
    rw [TypeTree.parameters_eq_map]
    induction h with
    | nil => exact .nil
    | cons hp _ ih =>
      rw [List.forall_mem_cons] at hS
      exact .cons (prints_parameter hp hS.1) (ih hS.2)
  exact (PrintsAll.cons (.mark .leftParen) (.cons (.apart .comma hlist) (.last (.mark .rightParen)))).seq

/-- One type parameter of a signature. -/
theorem prints_typeParameter {p : TypeParameter} {g : GenericOf (TypeHandle × TypeTree)} (h : p.Is g)
    (hc : ∀ e ∈ g.constraint, S (some e.1) e.2.lexemes)
    (hd : ∀ e ∈ g.default, S (some e.1) e.2.lexemes) :
    Prints S (typeParameter p) ((g.map Prod.snd).map TypeTree.lexemes).lexemes := by
  obtain ⟨hname, hconstraint, hdefault⟩ := h
  have hoption : ∀ o : Option (TypeHandle × TypeTree), (∀ e ∈ o, S (some e.1) e.2.lexemes) →
      Option.Rel (fun h ls => S (some h) ls) (o.map Prod.fst)
        ((o.map Prod.snd).map TypeTree.lexemes) := by
    intro o ho
    cases o with
    | none => exact .none
    | some e => exact .some (ho e rfl)
  have hword : Prints S (plain .name p.name) [.word g.name] := .word (congrArg _ hname)
  unfold typeParameter
  rw [hconstraint, hdefault]
  exact (PrintsAll.cons hword ((PrintsAll.optionalPart .extending (hoption _ hc)).append
    (PrintsAll.optionalPart .equals (hoption _ hd)))).seq

/-- The type parameters of a signature. -/
theorem printsAll_generics {ps : Option (List TypeParameter)}
    {gs : List (GenericOf (TypeHandle × TypeTree))} (h : (ps.getD []).Forall₂ TypeParameter.Is gs)
    (hc : ∀ g ∈ gs, ∀ e ∈ g.constraint, S (some e.1) e.2.lexemes)
    (hd : ∀ g ∈ gs, ∀ e ∈ g.default, S (some e.1) e.2.lexemes) :
    PrintsAll S (generics ps) (genericList (TypeTree.generics (gs.map (GenericOf.map Prod.snd)))) := by
  have hlist : ((ps.getD []).map typeParameter).Forall₂ (Prints S)
      (TypeTree.generics (gs.map (GenericOf.map Prod.snd))) := by
    rw [TypeTree.generics_eq_map]
    generalize ps.getD [] = ps at h
    induction h with
    | nil => exact .nil
    | cons hp _ ih =>
      rw [List.forall_mem_cons] at hc hd
      exact .cons (prints_typeParameter hp hc.1 hd.1) (ih hc.2 hd.2)
  cases ps with
  | none =>
    cases h
    exact .nil
  | some ps =>
    cases h with
    | nil => exact .nil
    | cons _ _ =>
      exact .cons (.mark .leftAngle) (.cons (.apart .comma hlist) (.last (.mark .rightAngle)))

/-- A part of an array, of `keyof` or of an indexed access. -/
theorem prints_wrapped {e : TypeHandle} {t : TypeTree} (hS : S (some e) t.lexemes)
    (hkind : (m.type e).kind = t.kind) (ht : t.Legible) :
    Prints S (wrapped m (some e)) (t.asPart t.lexemes) := by
  unfold wrapped TypeTree.asPart
  dsimp only
  rw [hkind]
  split
  · rename_i hcompound
    have hkinds : ∀ k : TypeKind, k.isCompound → k ∈ TypeTree.longKinds := by
      intro k hk
      cases k <;> first
        | decide
        | cases hk
    exact .enclosed (.part hS) (ht.three_le_length (hkinds _ hcompound))
  · exact .part hS

/-- An operand of a union or an intersection. -/
theorem prints_operand {other : TypeKind} (hother : other ∈ TypeTree.longKinds) {e : TypeHandle}
    {t : TypeTree} (hS : S (some e) t.lexemes) (hkind : (m.type e).kind = t.kind) (ht : t.Legible) :
    Prints S (operand m other (some e)) (t.asOperand other t.lexemes) := by
  unfold operand TypeTree.asOperand
  dsimp only
  rw [hkind]
  split
  · rename_i henclosed
    refine .enclosed (.part hS) (ht.three_le_length ?_)
    simp only [Bool.or_eq_true, decide_eq_true_eq] at henclosed
    rcases henclosed with (he | he) | he
    · rw [he]
      decide
    · rw [he]
      decide
    · rwa [he]
  · exact .part hS

/-- The operands of a union or an intersection. -/
theorem prints_operands (l : Lexeme) {other : TypeKind} (hother : other ∈ TypeTree.longKinds)
    {es : List (TypeHandle × TypeTree)} (hS : ∀ e ∈ es, S (some e.1) e.2.lexemes)
    (hkind : ∀ e ∈ es, (m.type e.1).kind = e.2.kind) (ht : ∀ e ∈ es, e.2.Legible) :
    Prints S (.list (.limited (String.ofList l.chars))
      ((es.map fun e => some e.1).map (operand m other)))
      (joined l (TypeTree.operands other (es.map Prod.snd))) := by
  refine .limited l ?_
  rw [TypeTree.operands_eq_map, List.map_map, List.map_map, List.forall₂_map_left_iff,
    List.forall₂_map_right_iff, List.forall₂_same]
  exact fun e he => prints_operand hother (hS e he) (hkind e he) (ht e he)

end Records

/-! ## 4. Text -/

/-- **The text of a record is that of the tree**, wherever it is met on a path that has not come back. -/
structure Shown (st : Style) (m : Model) (h : TypeHandle) (t : TypeTree) : Prop where
  kind : (m.type h).kind = t.kind
  accessible : Acc (fun x y => st.Step m y x) h
  shows : ∀ n active ts, (∀ a ∈ active, Relation.TransGen (st.Step m) a h) →
    st.whole m n active (some h) = .ok ts → Shows ts t.lexemes

namespace Shown

variable {st : Style} {m : Model} {h : TypeHandle} {t : TypeTree}

/-- The parts of a record, and what they are written as. -/
def Parts (st : Style) (m : Model) (p : Option TypeHandle) (ls : List Lexeme) : Prop :=
  ∃ h t, p = some h ∧ Shown st m h t ∧ ls = t.lexemes

theorem inParts (hs : Shown st m h t) : Parts st m (some h) t.lexemes := ⟨h, t, rfl, hs, rfl⟩

/-- What has finitely many parts below it is not below itself. -/
theorem not_transGen {α : Type} {r : α → α → Prop} {a : α} (h : Acc (fun x y => r y x) a) :
    ¬ Relation.TransGen r a a := by
  induction h with
  | intro a _ ih =>
    intro hcycle
    -- the cycle can be entered at the next place
    obtain ⟨b, hab, hba⟩ := Relation.TransGen.head'_iff.1 hcycle
    exact ih b hab (.trans_right hba (.single hab))

/-- **A record whose layout is written as the tree.** -/
theorem of_prints (hkind : (m.type h).kind = t.kind)
    (hprints : Prints (Parts st m) (st.layout m h) t.lexemes) : Shown st m h t := by
  have hacc : Acc (fun x y => st.Step m y x) h := by
    refine Acc.intro _ fun x hx => ?_
    obtain ⟨ls, h', t', he, hshown, -⟩ := hprints.parts _ hx
    cases he
    exact hshown.accessible
  refine ⟨hkind, hacc, fun n active ts hactive hts => ?_⟩
  cases n with
  | zero => cases hts
  | succ n =>
    have hnew : h ∉ active := fun hmem => not_transGen hacc (hactive h hmem)
    rw [Style.whole, if_neg hnew] at hts
    refine hprints.shown _ (fun p hp ls hls us hus => ?_) ts hts
    obtain ⟨h', t', rfl, hshown, rfl⟩ := hls
    refine hshown.shows n (h :: active) us (List.forall_mem_cons.2 ⟨.single hp, fun a ha => ?_⟩) hus
    exact (hactive a ha).tail hp

open Layout

variable {e k : TypeHandle} {t' : TypeTree} {es : List (TypeHandle × TypeTree)}

theorem native {name : String} (hk : (m.type h).kind = .native) (hname : (m.type h).name = some name) :
    Shown st m h (.native name) := by
  have hlayout : st.layout m h = .plain .builtin name := by
    unfold Style.layout
    dsimp only
    rw [hk, hname]
    rfl
  exact .of_prints hk (hlayout ▸ .word rfl)

theorem array (hk : (m.type h).kind = .array) (he : (m.type h).element = some e)
    (hs : Shown st m e t) (ht : t.Legible) : Shown st m h (.array t) := by
  have hlayout : st.layout m h = .seq [.wrapped m (some e), .punct "[]"] := by
    unfold Style.layout
    dsimp only
    rw [hk, he]
  have hbrackets : Prints (Parts st m) (.punct "[]") [.leftBracket, .rightBracket] :=
    .own rfl (Nat.le_refl 2)
  refine .of_prints hk (hlayout ▸ ?_)
  exact (PrintsAll.cons (prints_wrapped hs.inParts hs.kind ht) (.last hbrackets)).seq

theorem tuple (hk : (m.type h).kind = .tuple)
    (he : (m.type h).elements.getD [] = es.map fun e => some e.1)
    (hs : ∀ e ∈ es, Shown st m e.1 e.2) : Shown st m h (.tuple (es.map Prod.snd)) := by
  have hlayout : st.layout m h = .seq [.punct "[",
      .list (.apart ", ") ((es.map fun e => some e.1).map .part), .punct "]"] := by
    unfold Style.layout
    dsimp only
    rw [hk]
    dsimp only
    rw [he]
  have hlist : ((es.map fun e => some e.1).map Layout.part).Forall₂ (Prints (Parts st m))
      (TypeTree.lexemesAll (es.map Prod.snd)) := by
    rw [TypeTree.lexemesAll_eq_map, List.map_map, List.map_map, List.forall₂_map_left_iff,
      List.forall₂_map_right_iff, List.forall₂_same]
    exact fun e he => .part (hs e he).inParts
  refine .of_prints hk (hlayout ▸ ?_)
  exact (PrintsAll.cons (.mark .leftBracket) (.cons (.apart .comma hlist)
    (.last (.mark .rightBracket)))).seq

theorem keyOf (hk : (m.type h).kind = .keyOf) (he : (m.type h).target = some e)
    (hs : Shown st m e t) (ht : t.Legible) : Shown st m h (.keyOf t) := by
  have hlayout : st.layout m h = .seq [.plain .operator "keyof ", .wrapped m (some e)] := by
    unfold Style.layout
    dsimp only
    rw [hk, he]
  refine .of_prints hk (hlayout ▸ ?_)
  exact (PrintsAll.cons (.mark .keyOf) (.last (prints_wrapped hs.inParts hs.kind ht))).seq

theorem indexedAccess (hk : (m.type h).kind = .indexedAccess) (he : (m.type h).target = some e)
    (hkey : (m.type h).key = some k) (hs : Shown st m e t) (ht : t.Legible) (hs' : Shown st m k t') :
    Shown st m h (.indexedAccess t t') := by
  have hlayout : st.layout m h =
      .seq [.wrapped m (some e), .punct "[", .part (some k), .punct "]"] := by
    unfold Style.layout
    dsimp only
    rw [hk, he, hkey]
  refine .of_prints hk (hlayout ▸ ?_)
  exact (PrintsAll.cons (prints_wrapped hs.inParts hs.kind ht) (.cons (.mark .leftBracket)
    (.cons (.part hs'.inParts) (.last (.mark .rightBracket))))).seq

theorem union (hk : (m.type h).kind = .union)
    (he : (m.type h).operands.getD [] = es.map fun e => some e.1)
    (hs : ∀ e ∈ es, Shown st m e.1 e.2) (ht : ∀ e ∈ es, e.2.Legible) :
    Shown st m h (.union (es.map Prod.snd)) := by
  have hlayout : st.layout m h = .list (.limited " | ")
      ((es.map fun e => some e.1).map (operand m .intersection)) := by
    unfold Style.layout
    dsimp only
    rw [hk]
    simp only [operands, hk, he, if_true]
  have hother : TypeKind.intersection ∈ TypeTree.longKinds := by decide
  refine .of_prints hk (hlayout ▸ ?_)
  exact prints_operands .bar hother (fun e he => (hs e he).inParts) (fun e he => (hs e he).kind) ht

theorem intersection (hk : (m.type h).kind = .intersection)
    (he : (m.type h).operands.getD [] = es.map fun e => some e.1)
    (hs : ∀ e ∈ es, Shown st m e.1 e.2) (ht : ∀ e ∈ es, e.2.Legible) :
    Shown st m h (.intersection (es.map Prod.snd)) := by
  have hlayout : st.layout m h = .list (.limited " & ")
      ((es.map fun e => some e.1).map (operand m .union)) := by
    unfold Style.layout
    dsimp only
    rw [hk]
    simp only [operands, hk, he, reduceCtorEq, if_false]
  have hother : TypeKind.union ∈ TypeTree.longKinds := by decide
  refine .of_prints hk (hlayout ▸ ?_)
  exact prints_operands .ampersand hother (fun e he => (hs e he).inParts)
    (fun e he => (hs e he).kind) ht

theorem conditional {c y n : TypeHandle} {tc te ty tn : TypeTree}
    (hk : (m.type h).kind = .conditional) (hc : (m.type h).checkType = some c)
    (he : (m.type h).extendsType = some e) (hbranches : (m.type h).resolved = some (some y, some n))
    (hsc : Shown st m c tc) (hse : Shown st m e te) (hsy : Shown st m y ty) (hsn : Shown st m n tn) :
    Shown st m h (.conditional tc te ty tn) := by
  have hlayout : st.layout m h = .seq [.part (some c), .plain .keyword " extends ",
      .part (some e), .punct " ? ", .part (some y), .punct " : ", .part (some n)] := by
    rw [st.layout_conditional hk]
    rw [Layout.conditional, Style.branchesOf, hbranches, hc, he]
    rfl
  refine .of_prints hk (hlayout ▸ ?_)
  exact (PrintsAll.cons (.part hsc.inParts) (.cons (.mark .extending)
    (.cons (.part hse.inParts) (.cons (.mark .whenTrue) (.cons (.part hsy.inParts)
      (.cons (.mark .whenFalse) (.last (.part hsn.inParts)))))))).seq

variable {r : TypeHandle} {gs : List (GenericOf (TypeHandle × TypeTree))}
  {ps : List (ParameterOf (TypeHandle × TypeTree))}

theorem function (hk : (m.type h).kind = .functionSignature)
    (hgs : ((m.type h).typeParameters.getD []).Forall₂ TypeParameter.Is gs)
    (hps : ((m.type h).parameters.getD []).Forall₂ Parameter.Is ps)
    (hr : (m.type h).returnType = some r)
    (hc : ∀ g ∈ gs, ∀ e ∈ g.constraint, Shown st m e.1 e.2)
    (hd : ∀ g ∈ gs, ∀ e ∈ g.default, Shown st m e.1 e.2)
    (hp : ∀ p ∈ ps, Shown st m p.type.1 p.type.2) (hs : Shown st m r t) :
    Shown st m h
      (.function (gs.map (GenericOf.map Prod.snd)) (ps.map (ParameterOf.map Prod.snd)) t) := by
  have hlayout : st.layout m h = .signature (.seq (generics (m.type h).typeParameters ++
      [parameters ((m.type h).parameters.getD []), .punct " => ", .part (some r)])) := by
    unfold Style.layout
    dsimp only
    rw [hk]
    show Layout.function _ = _
    rw [Layout.function, hr]
  refine .of_prints hk (hlayout ▸ ?_)
  have hgenerics := printsAll_generics hgs (fun g hg e he => (hc g hg e he).inParts)
    fun g hg e he => (hd g hg e he).inParts
  have hparameters := prints_parameters hps fun p hpmem => (hp p hpmem).inParts
  exact (hgenerics.append (.cons hparameters (.cons (.mark .arrow) (.last (.part hs.inParts))))).seq.signature

theorem constructor (hk : (m.type h).kind = .constructorSignature)
    (hps : ((m.type h).parameters.getD []).Forall₂ Parameter.Is ps)
    (hr : (m.type h).returnType = some r) (hp : ∀ p ∈ ps, Shown st m p.type.1 p.type.2)
    (hs : Shown st m r t) :
    Shown st m h (.constructor (ps.map (ParameterOf.map Prod.snd)) t) := by
  have hlayout : st.layout m h = .seq [.plain .operator "new ",
      parameters ((m.type h).parameters.getD []), .punct " => ", .part (some r)] := by
    unfold Style.layout
    dsimp only
    rw [hk, hr]
  refine .of_prints hk (hlayout ▸ ?_)
  have hparameters := prints_parameters hps fun p hpmem => (hp p hpmem).inParts
  exact (PrintsAll.cons (.mark .new) (.cons hparameters
    (.cons (.mark .arrow) (.last (.part hs.inParts))))).seq

end Shown

/-- **The text of a record is that of its tree**, if the tree is legible. -/
theorem Spells.shown (st : Style) {m : Model} {h : TypeHandle} {t : TypeTree} (hs : Spells m h t)
    (ht : t.Legible) : Shown st m h t := by
  induction hs with
  | native hk hname => exact .native hk hname
  | array hk he _ ih =>
    cases ht with
    | array ht _ _ => exact .array hk he (ih ht) ht
  | tuple hk he _ ih =>
    cases ht with
    | tuple ht => exact .tuple hk he fun e he => ih e he (ht _ (List.mem_map_of_mem he))
  | keyOf hk he _ ih =>
    cases ht with
    | keyOf ht _ => exact .keyOf hk he (ih ht) ht
  | indexedAccess hk he hkey _ _ ih ih' =>
    cases ht with
    | indexedAccess ht _ _ ht' => exact .indexedAccess hk he hkey (ih ht) ht (ih' ht')
  | union hk he _ ih =>
    cases ht with
    | union _ ht _ =>
      rw [List.forall_mem_map] at ht
      exact .union hk he (fun e he => ih e he (ht e he)) ht
  | intersection hk he _ ih =>
    cases ht with
    | intersection _ ht _ =>
      rw [List.forall_mem_map] at ht
      exact .intersection hk he (fun e he => ih e he (ht e he)) ht
  | conditional hk hc he hbranches _ _ _ _ ihc ihe ihy ihn =>
    cases ht with
    | conditional htc _ _ _ hte hty htn =>
      exact .conditional hk hc he hbranches (ihc htc) (ihe hte) (ihy hty) (ihn htn)
  | function hk hgs hps hr _ _ _ _ ihc ihd ihp ihr =>
    cases ht with
    | function _ htc htd _ htp htr =>
      rw [List.forall_mem_map] at htc htd htp
      refine .function hk hgs hps hr (fun g hg e he => ihc g hg e he ?_)
        (fun g hg e he => ihd g hg e he ?_) (fun p hp => ihp p hp (htp p hp)) (ihr htr)
      · exact htc g hg _ (Option.mem_map_of_mem _ he)
      · exact htd g hg _ (Option.mem_map_of_mem _ he)
  | constructor hk hps hr _ _ ihp ihr =>
    cases ht with
    | constructor _ htp htr =>
      rw [List.forall_mem_map] at htp
      exact .constructor hk hps hr (fun p hp => ihp p hp (htp p hp)) (ihr htr)

/-! ## 5. Records with one text -/

namespace Build

variable {cx : Context} {α : Type} {render : Model → Rendering α} {s s' : Store} {a : α}

/-- A rendering that resolves the branches it meets is one of the store it leaves. -/
theorem render_of_settledWithin {n : Nat} (h : (settledWithin cx render n).run s = (.ok a, s')) :
    render s'.toModel = .ok a := by
  induction n generalizing s with
  | zero => cases h
  | succ n ih =>
    rw [settledWithin, run_get] at h
    split at h
    · rename_i hrender
      cases h
      exact hrender
    · cases h
    · rename_i x _
      cases hrun : (branches cx x).run s with
      | mk result s₁ =>
        cases result with
        | ok pair =>
          rw [run_bind_ok hrun] at h
          exact ih h
        | error f =>
          rw [run_bind_error hrun] at h
          cases h

theorem render_of_settled (h : (settled cx render).run s = (.ok a, s')) : render s'.toModel = .ok a := by
  rw [settled, run_get] at h
  exact render_of_settledWithin h

/-- **A record prints a text and spells a tree**, and nothing of the rendering is folded. -/
structure PrintsAs (cx : Context) (st : Style) (s : Store) (root : TypeHandle) (t : TypeTree)
    (text : String) (s' : Store) : Prop where
  run : (settled cx (st.text · (some root))).run s = (.ok text, s')
  spells : Spells s'.toModel root t
  flat : ∀ ts, st.tokens s'.toModel (some root) = .ok ts → Flat ts

/-- **The text is what the tree is written as.** -/
theorem PrintsAs.text_eq {st : Style} {root : TypeHandle} {t : TypeTree} {text : String}
    (h : PrintsAs cx st s root t text s') (ht : t.Legible) :
    text = String.ofList (charsOf t.lexemes) := by
  have hrender := render_of_settled h.run
  obtain ⟨ts, hts, htext⟩ := bind_eq_ok.1 hrender
  have hwhole := Style.whole_of_flat hts (h.flat ts hts)
  have hshown := ((h.spells.shown st ht).shows _ _ _ (fun a ha => absurd ha List.not_mem_nil) hwhole).text
  rw [hshown] at htext
  exact (Except.ok.inj htext).symm

/-- **The text determines the tree.** -/
theorem text_determines_tree {cx' : Context} {st st' : Style} {s₁ s₁' : Store} {root root' : TypeHandle}
    {t t' : TypeTree} {text : String} (h : PrintsAs cx st s root t text s₁)
    (h' : PrintsAs cx' st' s' root' t' text s₁') (ht : t.Legible) (ht' : t'.Legible) :
    t.flatten = t'.flatten := by
  have hsame := (h.text_eq ht).symm.trans (h'.text_eq ht')
  exact TypeTree.flatten_of_chars ht ht' (String.ofList_inj.1 hsame)

/-- A record that prints with all its branches resolved. -/
theorem PrintsAs.of_text {st : Style} {root : TypeHandle} {t : TypeTree} {text : String}
    (hs : Spells s.toModel root t) (htext : st.text s.toModel (some root) = .ok text)
    (hflat : ((st.tokens s.toModel (some root)).toOption.getD []).all (!·.isFolded) = true) :
    PrintsAs cx st s root t text s := by
  refine ⟨run_settled htext, hs, fun ts hts => ?_⟩
  rw [hts] at hflat
  exact fun t ht => by simpa using List.all_eq_true.1 hflat t ht

/-- Three natives, the union of the first with the union of the others, and the union of all. -/
def nestedUnion : Store := .ofRecords [] [{ kind := .native, name := some "A" },
  { kind := .native, name := some "B" }, { kind := .native, name := some "C" },
  { kind := .union, operands := some [some ⟨1⟩, some ⟨2⟩] },
  { kind := .union, operands := some [some ⟨0⟩, some ⟨3⟩] },
  { kind := .union, operands := some [some ⟨0⟩, some ⟨1⟩, some ⟨2⟩] }]

/-- The nested union and the flat one show one text, and flatten to one tree. -/
theorem text_determines_tree_nested :
    PrintsAs .blank (.byKind {}) nestedUnion ⟨4⟩
        (.union [.native "A", .union [.native "B", .native "C"]]) "A | B | C" nestedUnion ∧
      PrintsAs .blank (.byKind {}) nestedUnion ⟨5⟩
        (.union [.native "A", .native "B", .native "C"]) "A | B | C" nestedUnion ∧
      (TypeTree.union [.native "A", .union [.native "B", .native "C"]]).flatten =
        (TypeTree.union [.native "A", .native "B", .native "C"]).flatten := by
  have hA : Spells nestedUnion.toModel ⟨0⟩ (.native "A") := .native rfl rfl
  have hB : Spells nestedUnion.toModel ⟨1⟩ (.native "B") := .native rfl rfl
  have hC : Spells nestedUnion.toModel ⟨2⟩ (.native "C") := .native rfl rfl
  have hname : ∀ name ∈ ["A", "B", "C"], (TypeTree.native name).Legible := by
    intro name hname
    refine .native ⟨List.all_eq_true.1 ?_, ?_, ?_⟩ <;> revert name <;> decide
  have hlegible : (TypeTree.union [.native "B", .native "C"]).Legible :=
    .union (Nat.le_refl 2) (by simp [hname]) (by simp [TypeTree.kind])
  have hnested : PrintsAs .blank (.byKind {}) nestedUnion ⟨4⟩
      (.union [.native "A", .union [.native "B", .native "C"]]) "A | B | C" nestedUnion :=
    .of_text (.union_two rfl rfl hA (.union_two rfl rfl hB hC)) rfl rfl
  have hflat : PrintsAs .blank (.byKind {}) nestedUnion ⟨5⟩
      (.union [.native "A", .native "B", .native "C"]) "A | B | C" nestedUnion :=
    .of_text (@Spells.union _ _ [(⟨0⟩, .native "A"), (⟨1⟩, .native "B"), (⟨2⟩, .native "C")] rfl rfl
      (by simp [hA, hB, hC])) rfl rfl
  exact ⟨hnested, hflat, text_determines_tree hnested hflat
    (.union (Nat.le_refl 2) (by simp [hname, hlegible]) (by simp [TypeTree.kind]))
    (.union (by decide) (by simp [hname]) (by simp [TypeTree.kind]))⟩

/-! ### Trees written alike -/

/-- Two records with one text, and the trees they spell. -/
structure Lookalike where
  text : String
  record : TypeHandle
  tree : TypeTree
  otherRecord : TypeHandle
  otherTree : TypeTree

namespace Lookalike

/-- A conditional record. -/
def conditionalRecord (c e y n : Nat) : TypeExpr where
  kind := .conditional
  checkType := some ⟨c⟩
  extendsType := some ⟨e⟩
  resolved := some (some ⟨y⟩, some ⟨n⟩)

/-- A native, simple types made of it, and types that only parentheses would tell apart. -/
def store : Store := .ofRecords [] [
  { kind := .native, name := some "A" },
  { kind := .keyOf, target := some ⟨0⟩ },
  { kind := .array, element := some ⟨0⟩ },
  { kind := .indexedAccess, target := some ⟨0⟩, key := some ⟨0⟩ },
  { kind := .union, operands := some [some ⟨0⟩, some ⟨0⟩] },
  { kind := .intersection, operands := some [some ⟨0⟩, some ⟨0⟩] },
  { kind := .functionSignature, returnType := some ⟨0⟩ },
  { kind := .constructorSignature, returnType := some ⟨0⟩ },
  conditionalRecord 0 0 0 0,
  -- brackets after `keyof` and after a constructor signature
  { kind := .array, element := some ⟨1⟩ },
  { kind := .keyOf, target := some ⟨2⟩ },
  { kind := .array, element := some ⟨7⟩ },
  { kind := .constructorSignature, returnType := some ⟨2⟩ },
  { kind := .indexedAccess, target := some ⟨1⟩, key := some ⟨0⟩ },
  { kind := .keyOf, target := some ⟨3⟩ },
  { kind := .indexedAccess, target := some ⟨7⟩, key := some ⟨0⟩ },
  { kind := .constructorSignature, returnType := some ⟨3⟩ },
  -- `keyof` of a constructor signature
  { kind := .keyOf, target := some ⟨7⟩ },
  { kind := .union, operands := some [some ⟨17⟩, some ⟨0⟩] },
  { kind := .constructorSignature, returnType := some ⟨4⟩ },
  { kind := .keyOf, target := some ⟨19⟩ },
  -- a conditional operand
  { kind := .union, operands := some [some ⟨0⟩, some ⟨8⟩] },
  conditionalRecord 4 0 0 0,
  { kind := .intersection, operands := some [some ⟨0⟩, some ⟨8⟩] },
  conditionalRecord 5 0 0 0,
  -- a signature or a conditional that is checked
  conditionalRecord 6 0 0 0,
  { kind := .functionSignature, returnType := some ⟨8⟩ },
  conditionalRecord 7 0 0 0,
  { kind := .constructorSignature, returnType := some ⟨8⟩ },
  conditionalRecord 8 0 0 0,
  conditionalRecord 0 0 0 8,
  -- one name, or two
  { kind := .functionSignature, returnType := some ⟨0⟩,
    parameters := some [{ name := .str "a: A, b", type := some ⟨0⟩ }] },
  { kind := .functionSignature, returnType := some ⟨0⟩,
    parameters := some [{ name := .str "a", type := some ⟨0⟩ }, { name := .str "b", type := some ⟨0⟩ }] },
  { kind := .functionSignature, returnType := some ⟨0⟩, typeParameters := some [{ name := "T, U" }] },
  { kind := .functionSignature, returnType := some ⟨0⟩,
    typeParameters := some [{ name := "T" }, { name := "U" }] }]

open TypeTree

/-- The native that all of them are made of. -/
def A : TypeTree := .native "A"

/-- One pair for each kind that lacks parentheses in a place, and two with a name that is no identifier. -/
def all : List Lookalike := [
  ⟨"keyof A[]", ⟨9⟩, .array (.keyOf A), ⟨10⟩, .keyOf (.array A)⟩,
  ⟨"new () => A[]", ⟨11⟩, .array (.constructor [] A), ⟨12⟩, .constructor [] (.array A)⟩,
  ⟨"keyof A[A]", ⟨13⟩, .indexedAccess (.keyOf A) A, ⟨14⟩, .keyOf (.indexedAccess A A)⟩,
  ⟨"new () => A[A]", ⟨15⟩, .indexedAccess (.constructor [] A) A,
    ⟨16⟩, .constructor [] (.indexedAccess A A)⟩,
  ⟨"keyof new () => A | A", ⟨18⟩, .union [.keyOf (.constructor [] A), A],
    ⟨20⟩, .keyOf (.constructor [] (.union [A, A]))⟩,
  ⟨"A | A extends A ? A : A", ⟨21⟩, .union [A, .conditional A A A A],
    ⟨22⟩, .conditional (.union [A, A]) A A A⟩,
  ⟨"A & A extends A ? A : A", ⟨23⟩, .intersection [A, .conditional A A A A],
    ⟨24⟩, .conditional (.intersection [A, A]) A A A⟩,
  ⟨"() => A extends A ? A : A", ⟨25⟩, .conditional (.function [] [] A) A A A,
    ⟨26⟩, .function [] [] (.conditional A A A A)⟩,
  ⟨"new () => A extends A ? A : A", ⟨27⟩, .conditional (.constructor [] A) A A A,
    ⟨28⟩, .constructor [] (.conditional A A A A)⟩,
  ⟨"A extends A ? A : A extends A ? A : A", ⟨29⟩, .conditional (.conditional A A A A) A A A,
    ⟨30⟩, .conditional A A A (.conditional A A A A)⟩,
  ⟨"(a: A, b: A) => A", ⟨31⟩, .function [] [⟨"a: A, b", false, false, A⟩] A,
    ⟨32⟩, .function [] [⟨"a", false, false, A⟩, ⟨"b", false, false, A⟩] A⟩,
  ⟨"<T, U>() => A", ⟨33⟩, .function [⟨"T, U", none, none⟩] [] A,
    ⟨34⟩, .function [⟨"T", none, none⟩, ⟨"U", none, none⟩] [] A⟩]

/-- The records spell their trees. -/
theorem spells : ∀ x ∈ all, Spells store.toModel x.record x.tree ∧
    Spells store.toModel x.otherRecord x.otherTree := by
  -- the parts that the pairs share, each by its record
  have hA : Spells store.toModel ⟨0⟩ A := .native rfl rfl
  have hkeyOf : Spells store.toModel ⟨1⟩ (.keyOf A) := .keyOf rfl rfl hA
  have harray : Spells store.toModel ⟨2⟩ (.array A) := .array rfl rfl hA
  have haccess : Spells store.toModel ⟨3⟩ (.indexedAccess A A) := .indexedAccess rfl rfl rfl hA hA
  have hunion : Spells store.toModel ⟨4⟩ (.union [A, A]) := .union_two rfl rfl hA hA
  have hintersection : Spells store.toModel ⟨5⟩ (.intersection [A, A]) :=
    .intersection_two rfl rfl hA hA
  have hfunction : Spells store.toModel ⟨6⟩ (.function [] [] A) := .function_nil rfl rfl rfl rfl hA
  have hconstructor : Spells store.toModel ⟨7⟩ (.constructor [] A) :=
    .constructor_nil rfl rfl rfl hA
  have hconditional : Spells store.toModel ⟨8⟩ (.conditional A A A A) :=
    .conditional rfl rfl rfl rfl hA hA hA hA
  simp only [all, List.forall_mem_cons, List.not_mem_nil, false_imp_iff, implies_true, and_true]
  refine ⟨⟨?_, ?_⟩, ⟨?_, ?_⟩, ⟨?_, ?_⟩, ⟨?_, ?_⟩, ⟨?_, ?_⟩, ⟨?_, ?_⟩, ⟨?_, ?_⟩, ⟨?_, ?_⟩, ⟨?_, ?_⟩,
    ⟨?_, ?_⟩, ⟨?_, ?_⟩, ⟨?_, ?_⟩⟩
  · exact .array rfl rfl hkeyOf
  · exact .keyOf rfl rfl harray
  · exact .array rfl rfl hconstructor
  · exact .constructor_nil rfl rfl rfl harray
  · exact .indexedAccess rfl rfl rfl hkeyOf hA
  · exact .keyOf rfl rfl haccess
  · exact .indexedAccess rfl rfl rfl hconstructor hA
  · exact .constructor_nil rfl rfl rfl haccess
  · exact .union_two rfl rfl (.keyOf rfl rfl hconstructor) hA
  · exact .keyOf rfl rfl (.constructor_nil rfl rfl rfl hunion)
  · exact .union_two rfl rfl hA hconditional
  · exact .conditional rfl rfl rfl rfl hunion hA hA hA
  · exact .intersection_two rfl rfl hA hconditional
  · exact .conditional rfl rfl rfl rfl hintersection hA hA hA
  · exact .conditional rfl rfl rfl rfl hfunction hA hA hA
  · exact .function_nil rfl rfl rfl rfl hconditional
  · exact .conditional rfl rfl rfl rfl hconstructor hA hA hA
  · exact .constructor_nil rfl rfl rfl hconditional
  · exact .conditional rfl rfl rfl rfl hconditional hA hA hA
  · exact .conditional rfl rfl rfl rfl hA hA hA hconditional
  · exact @Spells.function _ _ _ [] [⟨"a: A, b", false, false, (⟨0⟩, A)⟩] _ rfl .nil
      (.cons ⟨rfl, rfl, rfl, rfl⟩ .nil) rfl nofun nofun (by simp [hA]) hA
  · exact @Spells.function _ _ _ []
      [⟨"a", false, false, (⟨0⟩, A)⟩, ⟨"b", false, false, (⟨0⟩, A)⟩] _ rfl .nil
      (.cons ⟨rfl, rfl, rfl, rfl⟩ (.cons ⟨rfl, rfl, rfl, rfl⟩ .nil)) rfl nofun nofun (by simp [hA]) hA
  · exact @Spells.function _ _ _ [⟨"T, U", none, none⟩] [] _ rfl (.cons ⟨rfl, rfl, rfl⟩ .nil) .nil rfl
      (by simp) (by simp) nofun hA
  · exact @Spells.function _ _ _ [⟨"T", none, none⟩, ⟨"U", none, none⟩] [] _ rfl
      (.cons ⟨rfl, rfl, rfl⟩ (.cons ⟨rfl, rfl, rfl⟩ .nil)) .nil rfl (by simp) (by simp) nofun hA

/-- The two trees differ, nested unions and intersections dissolved. -/
theorem flatten_ne : ∀ x ∈ all, x.tree.flatten ≠ x.otherTree.flatten := by
  simp only [all, List.forall_mem_cons, List.not_mem_nil, false_imp_iff, implies_true, and_true]
  refine ⟨nofun, nofun, nofun, nofun, nofun, nofun, nofun, nofun, nofun, nofun, ?_, ?_⟩ <;>
    simp [flatten, flattenParameters, flattenGenerics]

end Lookalike

/-- **Without parentheses around every part that needs them, or with names that are no identifiers, the
    text does not determine the tree.** -/
theorem text_ambiguous : Lookalike.all.Forall fun x =>
    PrintsAs .blank (.byKind {}) Lookalike.store x.record x.tree x.text Lookalike.store ∧
      PrintsAs .blank (.byKind {}) Lookalike.store x.otherRecord x.otherTree x.text
        Lookalike.store ∧ x.tree.flatten ≠ x.otherTree.flatten := by
  refine List.forall_iff_forall_mem.2 fun x hx => ?_
  obtain ⟨hspells, hother⟩ := Lookalike.spells x hx
  have htext : ∀ x ∈ Lookalike.all,
      (Style.byKind {}).text Lookalike.store.toModel (some x.record) = .ok x.text ∧
        (Style.byKind {}).text Lookalike.store.toModel (some x.otherRecord) = .ok x.text := by
    decide
  have hflat : ∀ x ∈ Lookalike.all, ∀ h ∈ [x.record, x.otherRecord],
      (((Style.byKind {}).tokens Lookalike.store.toModel (some h)).toOption.getD []).all
        (!·.isFolded) = true := by
    decide
  exact ⟨.of_text hspells (htext x hx).1 (hflat x hx _ List.mem_cons_self),
    .of_text hother (htext x hx).2 (hflat x hx _ (List.mem_cons_of_mem _ List.mem_cons_self)),
    Lookalike.flatten_ne x hx⟩

end Build

end ApiReference
