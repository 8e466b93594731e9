/-
  Reading a written type back.

  The reader looks at no more than two words or marks ahead.  It takes a bound on its depth, so that it
  is a function like any other; what is said of it holds for all large enough bounds.  Reading what a
  legible tree is written as gives the tree with nested unions and intersections dissolved, so trees
  that are written alike are the same up to that.

  1. `Reader`            -- readers, and `Takes`;
  2. `readAt`            -- the reader of types;
  3. lookahead           -- what begins a signature;
  4. `Bracketed`, `Operand`, `Joined`, `Whole` -- what is read at each level, as rules;
  5. `Legible.readable`  -- legible trees are read back;
  6. `flatten_of_chars`  -- trees written alike.
-/
import ApiReference.Proofs.Render.Tree
import Mathlib.Data.List.Forall2
import Mathlib.Order.Filter.AtTopBot.Basic

namespace ApiReference

open Lexeme Filter

/-! ## 1. Readers -/

/-- A reader takes what it reads from the front of a sequence. -/
abbrev Reader (α : Type) := StateT (List Lexeme) Option α

namespace Reader

/-- The mark must stand there. -/
def expect (l : Lexeme) : Reader Unit
  | l' :: ls => if l' = l then some ((), ls) else none
  | [] => none

/-- Does the mark stand there?  If it does, it is passed over. -/
def accept (l : Lexeme) : Reader Bool
  | l' :: ls => if l' = l then some (true, ls) else some (false, l' :: ls)
  | [] => some (false, [])

/-- A word must stand there. -/
def word : Reader String
  | .word name :: ls => some (name, ls)
  | _ => none

/-- One entry or more, with marks between them. -/
def list {α : Type} (item : Reader α) (separator : Lexeme) : (fuel : Nat) → Reader (List α)
  | 0 => failure
  | n + 1 => do
    let a ← item
    if ← accept separator then return a :: (← list item separator n) else return [a]

/-- What follows a mark, if the mark stands there. -/
def after {α : Type} (mark : Lexeme) (item : Reader α) : Reader (Option α) := do
  if ← accept mark then return some (← item) else return none

end Reader

/-- **The reader takes these words and marks, and goes on as another.** -/
def Leads {α : Type} (r : Reader α) (ls k : List Lexeme) (r' : Reader α) : Prop :=
  r.run (ls ++ k) = r'.run k

/-- **The reader takes these words and marks and leaves the rest.** -/
def Takes {α : Type} (r : Reader α) (ls k : List Lexeme) (a : α) : Prop := Leads r ls k (pure a)

namespace Leads

variable {α β : Type} {r : Reader α} {f : α → Reader β} {r' : Reader β} {ls ls' k : List Lexeme} {a : α}

theorem refl (r : Reader α) (k : List Lexeme) : Leads r [] k r := rfl

theorem trans {r₁ r₂ r₃ : Reader α} (h : Leads r₁ ls (ls' ++ k) r₂) (h' : Leads r₂ ls' k r₃) :
    Leads r₁ (ls ++ ls') k r₃ := by
  unfold Leads at *
  rw [List.append_assoc, h, h']

theorem bind (h : Takes r ls (ls' ++ k) a) (h' : Leads (f a) ls' k r') :
    Leads (r >>= f) (ls ++ ls') k r' := by
  unfold Takes Leads at *
  rw [List.append_assoc, StateT.run_bind, h]
  exact h'

theorem last (h : Takes r ls k a) (h' : f a = r') : Leads (r >>= f) ls k r' := by
  rw [← List.append_nil ls]
  exact bind h (h' ▸ .refl _ _)

theorem onward {r₁ r₂ r₃ : Reader α} (h : Leads r₁ ls k r₂) (h' : Leads r₂ [] k r₃) :
    Leads r₁ ls k r₃ := Eq.trans h h'

theorem expect {l : Lexeme} {f : Unit → Reader β} (h : Leads (f ()) ls k r') :
    Leads (Reader.expect l >>= f) (l :: ls) k r' := by
  have hmark : Takes (Reader.expect l) [l] (ls ++ k) () := if_pos rfl
  exact bind hmark h

theorem accepted {l : Lexeme} {f : Bool → Reader β} (h : Leads (f true) ls k r') :
    Leads (Reader.accept l >>= f) (l :: ls) k r' := by
  have hmark : Takes (Reader.accept l) [l] (ls ++ k) true := if_pos rfl
  exact bind hmark h

theorem refused {l : Lexeme} {f : Bool → Reader β} (hl : (ls ++ k).head? ≠ some l)
    (h : Leads (f false) ls k r') : Leads (Reader.accept l >>= f) ls k r' := by
  have hmark : Takes (Reader.accept l) [] (ls ++ k) false := by
    show (Reader.accept l).run (ls ++ k) = some (false, ls ++ k)
    cases hls : ls ++ k with
    | nil => rfl
    | cons l' rest =>
      rw [hls, List.head?_cons] at hl
      exact if_neg fun he => hl (congrArg some he)
  exact bind hmark h

theorem word {name : String} {f : String → Reader β} (h : Leads (f name) ls k r') :
    Leads (Reader.word >>= f) (.word name :: ls) k r' := by
  have hword : Takes Reader.word [.word name] (ls ++ k) name := rfl
  exact bind hword h

end Leads

/-- The sequence begins with none of the marks. -/
def Avoids (ms ls : List Lexeme) : Prop := ∀ l ∈ ls.head?, l ∉ ms

namespace Avoids

variable {ms ls k : List Lexeme}

theorem nil : Avoids ms [] := fun _ h => by cases h

theorem cons {l : Lexeme} (h : l ∉ ms) (ls : List Lexeme) : Avoids ms (l :: ls) := by
  intro l' hl'
  cases hl'
  exact h

theorem head_ne (h : Avoids ms k) {l : Lexeme} (hl : l ∈ ms) : k.head? ≠ some l := fun he => h l he hl

theorem mono {ms' : List Lexeme} (h : Avoids ms k) (hms : ms' ⊆ ms) : Avoids ms' k :=
  fun l hl hmem => h l hl (hms hmem)

end Avoids

/-- Entries that are read one by one are read as a list. -/
theorem takes_list {α : Type} {item : Reader α} {separator : Lexeme} {ms : List Lexeme}
    (hseparator : separator ∉ ms) {Ls : List (List Lexeme)} {as : List α}
    (h : Ls.Forall₂ (fun L a => ∀ k, Avoids ms k → Takes item L k a) as) (hne : Ls ≠ []) {n : Nat}
    (hn : Ls.length ≤ n) {k : List Lexeme} (hk : Avoids (separator :: ms) k) :
    Takes (item.list separator n) (joined separator Ls) k as := by
  induction h generalizing n with
  | nil => exact absurd rfl hne
  | @cons L a Ls as hfirst hrest ih =>
    cases n with
    | zero => cases hn
    | succ n =>
      rw [Reader.list]
      by_cases hLs : Ls = []
      · subst hLs
        cases hrest
        rw [joined_singleton]
        have hend : Avoids ms k := hk.mono (List.subset_cons_self _ _)
        rw [← List.append_nil L]
        exact .bind (hfirst k hend) (.refused (hk.head_ne List.mem_cons_self) (.refl _ _))
      · rw [joined_cons _ _ hLs]
        refine .bind (hfirst _ (.cons hseparator _)) (.accepted ?_)
        exact .last (ih hLs (Nat.le_of_succ_le_succ hn)) rfl

/-- What is read after a mark. -/
theorem takes_after {α : Type} {item : Reader α} {mark : Lexeme} {ls : Option (List Lexeme)}
    {a : Option α} {k : List Lexeme} (h : Option.Rel (fun L a => Takes item L k a) ls a)
    (hk : k.head? ≠ some mark) : Takes (item.after mark) (after mark ls) k a := by
  cases h with
  | none => exact .refused hk (.refl _ _)
  | some h => exact .accepted (.last h rfl)

/-! ## 2. Types -/

/-- What is asked of a reader that reads a part. -/
inductive Level where
  /-- a whole type -/
  | type
  /-- an operand that holds together -/
  | operand

section Read

open Reader

variable (part : Level → Reader TypeTree) (fuel : Nat)

/-- A parameter of a signature. -/
def readParameter : Reader (ParameterOf TypeTree) := do
  let rest ← accept .dots
  let name ← word
  let optional ← accept .mayMiss
  expect .colon
  return ⟨name, rest, optional, ← part .type⟩

/-- The parameters of a signature, in parentheses. -/
def readParameters : Reader (List (ParameterOf TypeTree)) := do
  expect .leftParen
  if ← accept .rightParen then return []
  else
    let ps ← (readParameter part).list .comma fuel
    expect .rightParen
    return ps

/-- A type parameter of a signature. -/
def readGeneric : Reader (GenericOf TypeTree) := do
  let name ← word
  let constraint ← (part .type).after .extending
  let default ← (part .type).after .equals
  return ⟨name, constraint, default⟩

/-- The type parameters of a signature, in angle brackets, or none. -/
def readGenerics : Reader (List (GenericOf TypeTree)) := do
  if ← accept .leftAngle then
    let gs ← (readGeneric part).list .comma fuel
    expect .rightAngle
    return gs
  else return []

/-- The result of a signature, after the arrow. -/
def readResult : Reader TypeTree := do
  expect .arrow
  part .type

/-- A function or constructor signature. -/
def readSignature : Reader TypeTree := do
  if ← accept .new then
    let ps ← readParameters part fuel
    return .constructor ps (← readResult part)
  else
    let gs ← readGenerics part fuel
    let ps ← readParameters part fuel
    return .function gs ps (← readResult part)

/-- A native, a tuple or a type in parentheses. -/
def readPrimary : Reader TypeTree := do
  if ← accept .leftParen then
    let t ← part .type
    expect .rightParen
    return t
  else if ← accept .leftBracket then
    if ← accept .rightBracket then return .tuple []
    else
      let es ← (part .type).list .comma fuel
      expect .rightBracket
      return .tuple es
  else return .native (← word)

/-- The brackets after a type. -/
def readSuffixes : (fuel : Nat) → TypeTree → Reader TypeTree
  | 0, _ => failure
  | n + 1, t => do
    if ← accept .leftBracket then
      if ← accept .rightBracket then readSuffixes n (.array t)
      else
        let k ← part .type
        expect .rightBracket
        readSuffixes n (.indexedAccess t k)
    else return t

/-- A type with the brackets after it. -/
def readBracketed : Reader TypeTree := do
  let t ← readPrimary part fuel
  readSuffixes part fuel t

/-- An operand that holds together. -/
def readOperand : Reader TypeTree := do
  if ← accept .keyOf then return .keyOf (← part .operand)
  else readBracketed part fuel

/-- A union, an intersection, or one operand. -/
def readJoined : Reader TypeTree := do
  let t ← part .operand
  if ← accept .bar then return .union (t :: (← (part .operand).list .bar fuel))
  else if ← accept .ampersand then
    return .intersection (t :: (← (part .operand).list .ampersand fuel))
  else return t

/-- What makes the type before it conditional, if it stands there. -/
def readBranches (c : TypeTree) : Reader TypeTree := do
  if ← accept .extending then
    let e ← part .type
    expect .whenTrue
    let y ← part .type
    expect .whenFalse
    return .conditional c e y (← part .type)
  else return c

end Read

/-- After a parenthesis: do parameters begin? -/
def startsParameters : List Lexeme → Bool
  | .rightParen :: _ | .dots :: _ | .word _ :: .mayMiss :: _ | .word _ :: .colon :: _ => true
  | _ => false

/-- Does a signature begin? -/
def startsSignature : List Lexeme → Bool
  | .new :: _ | .leftAngle :: _ => true
  | .leftParen :: ls => startsParameters ls
  | _ => false

/-- A type. -/
def readWhole (part : Level → Reader TypeTree) (fuel : Nat) : Reader TypeTree := do
  if startsSignature (← get) then readSignature part fuel
  else
    let t ← readJoined part fuel
    readBranches part t

/-- **The reader of types**, to a depth. -/
def readAt : (depth : Nat) → Level → Reader TypeTree
  | 0, _ => failure
  | n + 1, .type => readWhole (readAt n) n
  | n + 1, .operand => readOperand (readAt n) n

/-! ## 3. Lookahead -/

/-- Does not look like parameters, whatever may follow a type. -/
def NoParameters (ls : List Lexeme) : Prop :=
  ∀ k, Avoids [.mayMiss, .colon] k → startsParameters (ls ++ k) = false

/-- Does not look like a signature. -/
def NoSignature (ls : List Lexeme) : Prop := ∀ k, startsSignature (ls ++ k) = false

theorem exists_joined (separator : Lexeme) (e : List Lexeme) (es : List (List Lexeme)) :
    ∃ k, joined separator (e :: es) = e ++ k := by
  by_cases hes : es = []
  · exact ⟨[], by rw [hes, joined_singleton, List.append_nil]⟩
  · exact ⟨_, joined_cons _ _ hes⟩

namespace NoParameters

variable {ls : List Lexeme}

theorem append {l : Lexeme} (h : NoParameters ls) (hl : l ∉ [Lexeme.mayMiss, .colon])
    (ls' : List Lexeme) : NoParameters (ls ++ l :: ls') := by
  intro k _
  rw [List.append_assoc]
  exact h _ (.cons hl _)

theorem word (name : String) : NoParameters [.word name] := by
  intro k hk
  cases k with
  | nil => rfl
  | cons l k => cases l <;> first | rfl | exact absurd List.mem_cons_self (hk _ rfl) |
      exact absurd (List.mem_cons_of_mem _ List.mem_cons_self) (hk _ rfl)

theorem enclosed (ls : List Lexeme) : NoParameters (enclosed ls) := fun _ _ => rfl

theorem joined {e : List Lexeme} (h : NoParameters e) {separator : Lexeme}
    (hseparator : separator ∉ [Lexeme.mayMiss, .colon]) (es : List (List Lexeme)) :
    NoParameters (joined separator (e :: es)) := by
  by_cases hes : es = []
  · rwa [hes, joined_singleton]
  · rw [joined_cons _ _ hes]
    exact h.append hseparator _

end NoParameters

namespace NoSignature

variable {ls : List Lexeme}

theorem append (h : NoSignature ls) (ls' : List Lexeme) : NoSignature (ls ++ ls') := by
  intro k
  rw [List.append_assoc]
  exact h _

theorem enclosed (h : NoParameters ls) : NoSignature (enclosed ls) := by
  intro k
  show startsParameters (ls ++ [.rightParen] ++ k) = false
  rw [List.append_assoc]
  exact h _ (.cons (by decide) _)

theorem joined {e : List Lexeme} (h : NoSignature e) (separator : Lexeme) (es : List (List Lexeme)) :
    NoSignature (joined separator (e :: es)) := by
  by_cases hes : es = []
  · rwa [hes, joined_singleton]
  · rw [joined_cons _ _ hes]
    exact h.append _

end NoSignature

namespace TypeTree

variable {t : TypeTree} {ls : List Lexeme}

theorem noParameters_asPart (h : NoParameters ls) : NoParameters (t.asPart ls) := by
  unfold asPart
  split
  · exact .enclosed ls
  · exact h

theorem noParameters_asOperand {other : TypeKind} (h : NoParameters ls) :
    NoParameters (t.asOperand other ls) := by
  unfold asOperand
  split
  · exact .enclosed ls
  · exact h

/-- **A type in parentheses is not taken for parameters.** -/
theorem Legible.noParameters (h : t.Legible) : NoParameters t.lexemes := by
  -- a list of operands begins as its first operand does
  have hoperands : ∀ {ts : List TypeTree} (separator : Lexeme) (other : TypeKind),
      separator ∉ [Lexeme.mayMiss, .colon] → 2 ≤ ts.length → (∀ t ∈ ts, NoParameters t.lexemes) →
      NoParameters (joined separator (operands other ts)) := by
    intro ts separator other hseparator hlength hts
    cases ts with
    | nil => cases hlength
    | cons t ts =>
      rw [operands]
      exact (noParameters_asOperand (hts t List.mem_cons_self)).joined hseparator _
  induction h with
  | native _ => exact .word _
  | array _ _ _ ih => exact (noParameters_asPart ih).append (by decide) _
  | tuple _ _ => exact fun _ _ => rfl
  | keyOf _ _ _ => exact fun _ _ => rfl
  | indexedAccess _ _ _ _ ih _ => exact (noParameters_asPart ih).append (by decide) _
  | union hlength _ _ ih => exact hoperands .bar .intersection (by decide) hlength ih
  | intersection hlength _ _ ih => exact hoperands .ampersand .union (by decide) hlength ih
  | conditional _ _ _ _ _ _ _ ih _ _ _ => exact ih.append (by decide) _
  | @function gs _ _ _ _ _ _ _ _ _ _ _ _ =>
    rw [lexemes]
    cases generics gs with
    | nil => exact fun _ _ => rfl
    | cons g gs => exact fun _ _ => rfl
  | constructor _ _ _ _ _ => exact fun _ _ => rfl

/-- **A type that begins with an operand is not taken for a signature.** -/
theorem Legible.noSignature (h : t.Legible) (hfunction : t.kind ≠ .functionSignature)
    (hconstructor : t.kind ≠ .constructorSignature) : NoSignature t.lexemes := by
  have hpart : ∀ {e : TypeTree}, e.Legible → e.kind ≠ .constructorSignature →
      (e.kind ≠ .functionSignature → e.kind ≠ .constructorSignature → NoSignature e.lexemes) →
      NoSignature (e.asPart e.lexemes) := by
    intro e he hctor ih
    unfold asPart
    -- in parentheses stands a type, which is not taken for parameters
    split
    · exact .enclosed he.noParameters
    · rename_i hcompound
      exact ih (fun hk => hcompound (hk ▸ rfl)) hctor
  have hoperands : ∀ {ts : List TypeTree} (separator : Lexeme) (other : TypeKind), 2 ≤ ts.length →
      (∀ t ∈ ts, t.Legible) → (∀ t ∈ ts, t.kind ≠ .functionSignature →
        t.kind ≠ .constructorSignature → NoSignature t.lexemes) →
      NoSignature (joined separator (operands other ts)) := by
    intro ts separator other hlength hts ih
    cases ts with
    | nil => cases hlength
    | cons t ts =>
      rw [operands]
      refine .joined ?_ separator _
      unfold asOperand
      split
      · exact .enclosed (hts t List.mem_cons_self).noParameters
      · rename_i hbare
        simp only [Bool.or_eq_true, decide_eq_true_eq, not_or] at hbare
        exact ih t List.mem_cons_self hbare.1.1 hbare.1.2
  induction h with
  | native _ => exact fun _ => rfl
  | array he _ hctor ih => exact (hpart he hctor ih).append _
  | tuple _ _ => exact fun _ => rfl
  | keyOf _ _ _ => exact fun _ => rfl
  | indexedAccess ht _ hctor _ ih _ => exact (hpart ht hctor ih).append _
  | union hlength hts _ ih => exact hoperands .bar .intersection hlength hts ih
  | intersection hlength hts _ ih => exact hoperands .ampersand .union hlength hts ih
  | conditional _ _ hbare hbare' _ _ _ ih _ _ _ => exact (ih hbare hbare').append _
  | function => exact absurd rfl hfunction
  | constructor => exact absurd rfl hconstructor

end TypeTree

/-! ## 4. Levels -/

/-- What holds of all large enough successors holds of all large enough numbers. -/
theorem eventually_of_succ {P : Nat → Prop} (h : ∀ᶠ n in atTop, P (n + 1)) : ∀ᶠ n in atTop, P n := by
  obtain ⟨N, hN⟩ := eventually_atTop.1 h
  refine eventually_atTop.2 ⟨N + 1, fun n hn => ?_⟩
  cases n with
  | zero => cases hn
  | succ n => exact hN n (Nat.le_of_succ_le_succ hn)

/-- Entry by entry, what holds of all large enough numbers. -/
theorem eventually_forall₂ {α β : Type} {P : Nat → α → β → Prop} {as : List α} {bs : List β}
    (h : as.Forall₂ (fun a b => ∀ᶠ n in atTop, P n a b) bs) :
    ∀ᶠ n in atTop, as.Forall₂ (P n) bs := by
  induction h with
  | nil => exact .of_forall fun _ => .nil
  | cons hfirst _ ih =>
    filter_upwards [hfirst, ih] with n hn hrest
    exact .cons hn hrest

/-- A list of entries, all of which are read. -/
theorem eventually_list {α : Type} {item : Nat → Reader α} {separator : Lexeme} {ms : List Lexeme}
    (hseparator : separator ∉ ms) {Ls : List (List Lexeme)} {as : List α}
    (h : Ls.Forall₂ (fun L a => ∀ᶠ n in atTop, ∀ k, Avoids ms k → Takes (item n) L k a) as)
    (hne : Ls ≠ []) : ∀ᶠ n in atTop, ∀ k, Avoids (separator :: ms) k →
      Takes ((item n).list separator n) (joined separator Ls) k as := by
  filter_upwards [eventually_forall₂ h, eventually_ge_atTop Ls.length] with n hn hlength k hk
  exact takes_list hseparator hn hne hlength hk

/-- What begins a type does not begin with another mark. -/
theorem Begins.head_ne {ls : List Lexeme} (h : Begins ls) {l : Lexeme} (hl : l.isStart = false)
    (k : List Lexeme) : (ls ++ k).head? ≠ some l := by
  intro he
  obtain ⟨l', hl', hstart⟩ := h.append k
  rw [he] at hl'
  cases hl'
  rw [hl] at hstart
  cases hstart

/-- The marks that go on with a type: brackets, separators of operands, and `extends`. -/
def continuations : List Lexeme := [.leftBracket, .bar, .ampersand, .extending]

/-- **Read as a whole type.** -/
def Whole (ls : List Lexeme) (t : TypeTree) : Prop :=
  ∀ᶠ n in atTop, ∀ k, Avoids continuations k → Takes (readAt n .type) ls k t

/-- **Read as an operand that holds together.** -/
def Operand (ls : List Lexeme) (t : TypeTree) : Prop :=
  ∀ᶠ n in atTop, ∀ k, Avoids [.leftBracket] k → Takes (readAt n .operand) ls k t

/-- **Read as a union, an intersection or an operand.** -/
def Joined (ls : List Lexeme) (t : TypeTree) : Prop :=
  ∀ᶠ n in atTop, ∀ k, Avoids [.leftBracket, .bar, .ampersand] k →
    Takes (readJoined (readAt n) n) ls k t

/-- **Read as a type with brackets after it**, and more of them may follow. -/
def Bracketed (ls : List Lexeme) (t : TypeTree) : Prop :=
  ∃ j, ∀ᶠ n in atTop, ∀ k,
    Leads (readBracketed (readAt n) n) ls k (readSuffixes (readAt n) (n - j) t)

namespace Bracketed

variable {ls ls' : List Lexeme} {t t' : TypeTree}

theorem of_primary (h : ∀ᶠ n in atTop, ∀ k, Takes (readPrimary (readAt n) n) ls k t) :
    Bracketed ls t := by
  refine ⟨0, ?_⟩
  filter_upwards [h] with n hn k
  exact .last (hn k) rfl

theorem native (name : String) : Bracketed [.word name] (.native name) := by
  refine of_primary (.of_forall fun n k => ?_)
  exact .refused (by simp) (.refused (by simp) (.word (.refl _ _)))

theorem enclosed (h : Whole ls t) : Bracketed (enclosed ls) t := by
  refine of_primary ?_
  filter_upwards [h] with n hn k
  exact .accepted (.bind (hn _ (.cons (by decide) _)) (.expect (.refl _ _)))

/-- One more pair of brackets. -/
theorem suffix (h : Bracketed ls t)
    (hsuffix : ∀ᶠ n in atTop, ∀ j k,
      Leads (readSuffixes (readAt n) (j + 1) t) ls' k (readSuffixes (readAt n) j t')) :
    Bracketed (ls ++ ls') t' := by
  obtain ⟨j, hj⟩ := h
  refine ⟨j + 1, ?_⟩
  filter_upwards [hj, hsuffix, eventually_gt_atTop j] with n hn hnext hlt k
  have hfuel : n - j = n - (j + 1) + 1 := by omega
  refine (hn _).trans ?_
  rw [hfuel]
  exact hnext _ _

theorem array (h : Bracketed ls t) : Bracketed (ls ++ [.leftBracket, .rightBracket]) (.array t) :=
  h.suffix (.of_forall fun _ _ _ => .accepted (.accepted (.refl _ _)))

theorem indexedAccess (h : Bracketed ls t) (h' : Whole ls' t') (hbegins : Begins ls') :
    Bracketed (ls ++ .leftBracket :: (ls' ++ [.rightBracket])) (.indexedAccess t t') := by
  refine h.suffix ?_
  filter_upwards [h'] with n hn j k
  refine .accepted (.refused ?_ (.bind (hn _ (.cons (by decide) _)) (.expect (.refl _ _))))
  exact (hbegins.append _).head_ne rfl k

theorem tuple {Ls : List (List Lexeme)} {ts : List TypeTree} (h : Ls.Forall₂ Whole ts)
    (hbegins : ∀ L ∈ Ls, Begins L) :
    Bracketed (.leftBracket :: (joined .comma Ls ++ [.rightBracket])) (.tuple ts) := by
  refine of_primary ?_
  by_cases hLs : Ls = []
  · subst hLs
    cases h
    exact .of_forall fun n k => .refused (by simp) (.accepted (.accepted (.refl _ _)))
  · obtain ⟨L, Ls, rfl⟩ := List.exists_cons_of_ne_nil hLs
    have hfirst := (hbegins L List.mem_cons_self).joined .comma Ls
    have hlist : ∀ᶠ n in atTop, ∀ k, Avoids (.comma :: continuations) k →
        Takes ((readAt n .type).list .comma n) (joined .comma (L :: Ls)) k ts :=
      eventually_list (by decide) h hLs
    filter_upwards [hlist] with n hn k
    refine .refused (by simp) (.accepted (.refused ?_ (.bind ?_ (.expect (.refl _ _)))))
    · exact (hfirst.append _).head_ne rfl k
    · exact hn _ (.cons (by decide) _)

/-- With its brackets, a type holds together. -/
theorem operand (h : Bracketed ls t) : Operand ls t := by
  obtain ⟨j, hj⟩ := h
  refine eventually_of_succ ?_
  filter_upwards [hj, eventually_gt_atTop j] with n hn hlt k hk
  have hfuel : n - j = n - (j + 1) + 1 := by omega
  have htakes : Takes (readBracketed (readAt n) n) ls k t := by
    refine (hn k).onward ?_
    rw [hfuel]
    exact .refused (hk.head_ne List.mem_cons_self) (.refl _ _)
  refine .refused (fun hkeyOf => ?_) htakes
  -- no type with brackets begins with `keyof`
  obtain ⟨rest, hrest⟩ := List.head?_eq_some_iff.1 hkeyOf
  have hnone : (readBracketed (readAt n) n).run (.keyOf :: rest) = none := rfl
  rw [Takes, Leads, hrest, hnone] at htakes
  cases htakes

end Bracketed

namespace Operand

variable {ls : List Lexeme} {t : TypeTree}

theorem keyOf (h : Operand ls t) : Operand (.keyOf :: ls) (.keyOf t) := by
  refine eventually_of_succ ?_
  filter_upwards [h] with n hn k hk
  exact .accepted (.last (hn k hk) rfl)

theorem joined (h : Operand ls t) : Joined ls t := by
  filter_upwards [h] with n hn k hk
  have hend : Avoids [.leftBracket] k := hk.mono (by decide)
  rw [← List.append_nil ls]
  refine .bind (hn k hend) (.refused (hk.head_ne (by decide)) (.refused (hk.head_ne (by decide)) ?_))
  exact .refl _ _

end Operand

/-- **Read as operands**, one after the other. -/
def Series (separator : Lexeme) (ls : List Lexeme) (ts : List TypeTree) : Prop :=
  ∃ Ls, ls = joined separator Ls ∧ Ls ≠ [] ∧ Ls.Forall₂ Operand ts

theorem joined_append (separator : Lexeme) {es fs : List (List Lexeme)} (he : es ≠ []) (hf : fs ≠ []) :
    joined separator (es ++ fs) = joined separator es ++ separator :: joined separator fs := by
  induction es with
  | nil => exact absurd rfl he
  | cons e es ih =>
    by_cases hes : es = []
    · rw [hes, joined_singleton, List.cons_append, List.nil_append, joined_cons _ _ hf]
    · rw [List.cons_append, joined_cons _ _ (by simp [hes]), ih hes, joined_cons _ _ hes,
        List.append_assoc, List.cons_append]

namespace Series

variable {separator : Lexeme} {ls ls' : List Lexeme} {t : TypeTree} {ts ts' : List TypeTree}

theorem single (h : Operand ls t) : Series separator ls [t] :=
  ⟨[ls], (joined_singleton _ _).symm, List.cons_ne_nil _ _, .cons h .nil⟩

theorem append (h : Series separator ls ts) (h' : Series separator ls' ts') :
    Series separator (ls ++ separator :: ls') (ts ++ ts') := by
  obtain ⟨Ls, rfl, hLs, hts⟩ := h
  obtain ⟨Ls', rfl, hLs', hts'⟩ := h'
  refine ⟨Ls ++ Ls', (joined_append _ hLs hLs').symm, by simp [hLs], List.rel_append hts hts'⟩

/-- Series one after the other are a series. -/
theorem join {α : Type} {f : α → List Lexeme} {g : α → List TypeTree} {as : List α} (hne : as ≠ [])
    (h : ∀ a ∈ as, Series separator (f a) (g a)) :
    Series separator (joined separator (as.map f)) (as.flatMap g) := by
  induction as with
  | nil => exact absurd rfl hne
  | cons a as ih =>
    have hfirst := h a List.mem_cons_self
    by_cases has : as = []
    · subst has
      rw [List.map_cons, List.map_nil, joined_singleton, List.flatMap_singleton]
      exact hfirst
    · rw [List.map_cons, joined_cons _ _ (by simpa using has), List.flatMap_cons]
      exact hfirst.append (ih has fun x hx => h x (List.mem_cons_of_mem a hx))

/-- The first operand of two series, and the others. -/
theorem exists_first (h : Series separator ls ts) (h' : Series separator ls' ts') :
    ∃ L t Ls us, ls ++ separator :: ls' = L ++ separator :: joined separator Ls ∧
      ts ++ ts' = t :: us ∧ Operand L t ∧ Ls ≠ [] ∧ Ls.Forall₂ Operand us := by
  obtain ⟨Ls, rfl, hLs, hts⟩ := h
  obtain ⟨Ls', rfl, hLs', hts'⟩ := h'
  cases hts with
  | nil => exact absurd rfl hLs
  | @cons L t Ls us hfirst hrest =>
    refine ⟨L, t, Ls ++ Ls', us ++ ts', ?_, rfl, hfirst, by simp [hLs'], List.rel_append hrest hts'⟩
    rw [← joined_append separator hLs hLs', List.cons_append, joined_cons _ _ (by simp [hLs'])]

/-- Two series with a bar between them are a union. -/
theorem union (h : Series .bar ls ts) (h' : Series .bar ls' ts') :
    Joined (ls ++ .bar :: ls') (.union (ts ++ ts')) := by
  obtain ⟨L, t, Ls, us, hls, hts, hfirst, hLs, hrest⟩ := h.exists_first h'
  have hlist : ∀ᶠ n in atTop, ∀ k, Avoids [.bar, .leftBracket] k →
      Takes ((readAt n .operand).list .bar n) (joined .bar Ls) k us :=
    eventually_list (by decide) hrest hLs
  rw [hls, hts]
  filter_upwards [hfirst, hlist] with n hn hn' k hk
  exact .bind (hn _ (.cons (by decide) _)) (.accepted (.last (hn' k (hk.mono (by decide))) rfl))

/-- Two series with an ampersand between them are an intersection. -/
theorem intersection (h : Series .ampersand ls ts) (h' : Series .ampersand ls' ts') :
    Joined (ls ++ .ampersand :: ls') (.intersection (ts ++ ts')) := by
  obtain ⟨L, t, Ls, us, hls, hts, hfirst, hLs, hrest⟩ := h.exists_first h'
  have hlist : ∀ᶠ n in atTop, ∀ k, Avoids [.ampersand, .leftBracket] k →
      Takes ((readAt n .operand).list .ampersand n) (joined .ampersand Ls) k us :=
    eventually_list (by decide) hrest hLs
  rw [hls, hts]
  filter_upwards [hfirst, hlist] with n hn hn' k hk
  refine .bind (hn _ (.cons (by decide) _)) (.refused (by simp) (.accepted ?_))
  exact .last (hn' k (hk.mono (by decide))) rfl

end Series

namespace Joined

variable {ls : List Lexeme} {t : TypeTree}

theorem run_get {α : Type} {f : List Lexeme → Reader α} {k : List Lexeme} {r : Reader α}
    (h : Leads (f (ls ++ k)) ls k r) : Leads (get >>= f) ls k r := h

/-- A type that is no conditional. -/
theorem whole (h : Joined ls t) (hsignature : NoSignature ls) : Whole ls t := by
  refine eventually_of_succ ?_
  filter_upwards [h] with n hn k hk
  have hend : Avoids [.leftBracket, .bar, .ampersand] k := hk.mono (by decide)
  refine run_get ?_
  rw [hsignature k]
  rw [← List.append_nil ls]
  exact .bind (hn k hend) (.refused (hk.head_ne (by decide)) (.refl _ _))

/-- A conditional type, behind what it checks. -/
theorem conditional {e y m : List Lexeme} {te ty tn : TypeTree} (h : Joined ls t)
    (hsignature : NoSignature ls) (he : Whole e te) (hy : Whole y ty) (hn : Whole m tn) :
    Whole (ls ++ .extending :: (e ++ .whenTrue :: (y ++ .whenFalse :: m)))
      (.conditional t te ty tn) := by
  refine eventually_of_succ ?_
  filter_upwards [h, he, hy, hn] with n hcheck he hy hn k hk
  refine run_get ?_
  rw [hsignature.append _ k]
  refine .bind (hcheck _ (.cons (by decide) _)) (.accepted (.bind (he _ (.cons (by decide) _))
    (.expect (.bind (hy _ (.cons (by decide) _)) (.expect (.last (hn k hk) rfl))))))

end Joined

/-! ### Signatures -/

theorem takes_parameter {p : ParameterOf (List Lexeme)} {t : TypeTree} (h : Whole p.type t) :
    ∀ᶠ n in atTop, ∀ k, Avoids continuations k →
      Takes (readParameter (readAt n)) p.lexemes k ⟨p.name, p.rest, p.optional, t⟩ := by
  filter_upwards [h] with n hn k hk
  have hname : ∀ rest, Leads (do
      let name ← Reader.word
      let optional ← Reader.accept .mayMiss
      Reader.expect .colon
      return (⟨name, rest, optional, ← readAt n .type⟩ : ParameterOf TypeTree))
      (.word p.name :: ((if p.optional then [.mayMiss] else []) ++ .colon :: p.type)) k
      (pure ⟨p.name, rest, p.optional, t⟩) := by
    intro rest
    cases p.optional with
    | false => exact .word (.refused (by simp) (.expect (.last (hn k hk) rfl)))
    | true => exact .word (.accepted (.expect (.last (hn k hk) rfl)))
  unfold ParameterOf.lexemes
  cases p.rest with
  | false => exact .refused (by simp) (hname false)
  | true => exact .accepted (hname true)

/-- What begins parameters, behind the parenthesis. -/
theorem startsParameters_lexemes (p : ParameterOf (List Lexeme)) (k : List Lexeme) :
    startsParameters (p.lexemes ++ k) = true := by
  unfold ParameterOf.lexemes
  cases p.rest <;> cases p.optional <;> rfl

/-- No parameter begins with a closing parenthesis. -/
theorem ParameterOf.head_ne (p : ParameterOf (List Lexeme)) (k : List Lexeme) :
    (p.lexemes ++ k).head? ≠ some .rightParen := by
  unfold ParameterOf.lexemes
  cases p.rest <;> simp

theorem takes_generic {g : GenericOf TypeTree} (hc : ∀ t ∈ g.constraint, Whole t.lexemes t.flatten)
    (hd : ∀ t ∈ g.default, Whole t.lexemes t.flatten) :
    ∀ᶠ n in atTop, ∀ k, Avoids (.equals :: continuations) k →
      Takes (readGeneric (readAt n)) (g.map TypeTree.lexemes).lexemes k (g.map TypeTree.flatten) := by
  have hoption : ∀ o : Option TypeTree, (∀ t ∈ o, Whole t.lexemes t.flatten) →
      ∀ᶠ n in atTop, ∀ k, Avoids continuations k →
        Option.Rel (fun L t => Takes (readAt n .type) L k t) (o.map TypeTree.lexemes)
          (o.map TypeTree.flatten) := by
    intro o ho
    cases o with
    | none => exact .of_forall fun n k _ => .none
    | some t =>
      filter_upwards [ho t rfl] with n hn k hk
      exact .some (hn k hk)
  filter_upwards [hoption _ hc, hoption _ hd] with n hc hd k hk
  have hend : Avoids continuations k := hk.mono (List.subset_cons_self _ _)
  have hmiddle : Avoids continuations (after .equals (g.default.map TypeTree.lexemes) ++ k) := by
    cases g.default with
    | none => exact hend
    | some t => exact .cons (by decide) _
  refine .word (.bind (takes_after (hc _ hmiddle) (hmiddle.head_ne (by decide))) ?_)
  exact .last (takes_after (hd _ hend) (hk.head_ne List.mem_cons_self)) rfl

namespace TypeTree

variable {ps : List (ParameterOf TypeTree)} {gs : List (GenericOf TypeTree)} {r : TypeTree}

/-- The parameters of a signature are read back. -/
theorem takes_parameters (h : ∀ p ∈ ps, Whole p.type.lexemes p.type.flatten) :
    ∀ᶠ n in atTop, ∀ k, Takes (readParameters (readAt n) n)
      (parameterList (parameters ps)) k (flattenParameters ps) := by
  rw [parameters_eq_map, flattenParameters_eq_map]
  by_cases hps : ps = []
  · subst hps
    exact .of_forall fun n k => .expect (.accepted (.refl _ _))
  · have hlist : ∀ᶠ n in atTop, ∀ k, Avoids (.comma :: continuations) k →
        Takes ((readParameter (readAt n)).list .comma n)
          (joined .comma (ps.map fun p => (p.map lexemes).lexemes)) k
          (ps.map (ParameterOf.map flatten)) := by
      refine eventually_list (by decide) ?_ (by simpa using hps)
      rw [List.forall₂_map_left_iff, List.forall₂_map_right_iff, List.forall₂_same]
      exact fun p hp => takes_parameter (h p hp)
    filter_upwards [hlist] with n hn k
    refine .expect (.refused ?_ (.bind (hn _ (.cons (by decide) _)) (.expect (.refl _ _))))
    obtain ⟨p, ps, rfl⟩ := List.exists_cons_of_ne_nil hps
    obtain ⟨rest, hrest⟩ := exists_joined .comma (p.map lexemes).lexemes
      (ps.map fun p => (p.map lexemes).lexemes)
    rw [List.map_cons, hrest, List.append_assoc, List.append_assoc]
    exact (p.map lexemes).head_ne _

/-- The type parameters of a signature are read back. -/
theorem takes_generics (hc : ∀ g ∈ gs, ∀ t ∈ g.constraint, Whole t.lexemes t.flatten)
    (hd : ∀ g ∈ gs, ∀ t ∈ g.default, Whole t.lexemes t.flatten) :
    ∀ᶠ n in atTop, ∀ k, k.head? ≠ some .leftAngle →
      Takes (readGenerics (readAt n) n) (genericList (generics gs)) k (flattenGenerics gs) := by
  rw [generics_eq_map, flattenGenerics_eq_map]
  by_cases hgs : gs = []
  · subst hgs
    exact .of_forall fun n k hk => .refused hk (.refl _ _)
  · have hlist : ∀ᶠ n in atTop, ∀ k, Avoids (.comma :: .equals :: continuations) k →
        Takes ((readGeneric (readAt n)).list .comma n)
          (joined .comma (gs.map fun g => (g.map lexemes).lexemes)) k
          (gs.map (GenericOf.map flatten)) := by
      refine eventually_list (by decide) ?_ (by simpa using hgs)
      rw [List.forall₂_map_left_iff, List.forall₂_map_right_iff, List.forall₂_same]
      exact fun g hg => takes_generic (hc g hg) (hd g hg)
    filter_upwards [hlist] with n hn k _
    obtain ⟨g, gs, rfl⟩ := List.exists_cons_of_ne_nil hgs
    exact .accepted (.bind (hn _ (.cons (by decide) _)) (.expect (.refl _ _)))

/-- A constructor signature is read back. -/
theorem whole_constructor (hp : ∀ p ∈ ps, Whole p.type.lexemes p.type.flatten)
    (hr : Whole r.lexemes r.flatten) :
    Whole (TypeTree.constructor ps r).lexemes (TypeTree.constructor ps r).flatten := by
  refine eventually_of_succ ?_
  filter_upwards [takes_parameters hp, hr] with n hparameters hr k hk
  have hresult : Takes (readResult (readAt n)) (.arrow :: r.lexemes) k r.flatten :=
    .expect (hr k hk)
  exact Joined.run_get (.accepted (.bind (hparameters _) (.last hresult rfl)))

/-- What begins a function signature. -/
theorem startsSignature_function (k : List Lexeme) :
    startsSignature ((TypeTree.function gs ps r).lexemes ++ k) = true := by
  rw [lexemes]
  cases generics gs with
  | cons g gs => rfl
  | nil =>
    show startsParameters (joined .comma (parameters ps) ++ [.rightParen] ++ _ ++ k) = true
    cases ps with
    | nil => rfl
    | cons p ps =>
      obtain ⟨rest, hrest⟩ := exists_joined .comma (p.map lexemes).lexemes (parameters ps)
      rw [parameters, ← ParameterOf.map, hrest]
      simp only [List.append_assoc]
      exact startsParameters_lexemes _ _

/-- A function signature is read back. -/
theorem whole_function (hc : ∀ g ∈ gs, ∀ t ∈ g.constraint, Whole t.lexemes t.flatten)
    (hd : ∀ g ∈ gs, ∀ t ∈ g.default, Whole t.lexemes t.flatten)
    (hp : ∀ p ∈ ps, Whole p.type.lexemes p.type.flatten) (hr : Whole r.lexemes r.flatten) :
    Whole (TypeTree.function gs ps r).lexemes (TypeTree.function gs ps r).flatten := by
  refine eventually_of_succ ?_
  filter_upwards [takes_generics hc hd, takes_parameters hp, hr] with n hgenerics hparameters hr k hk
  have hresult : Takes (readResult (readAt n)) (.arrow :: r.lexemes) k r.flatten :=
    .expect (hr k hk)
  refine Joined.run_get ?_
  rw [startsSignature_function, lexemes]
  refine .refused ?_ (.bind (hgenerics _ (by simp [signature, parameterList]))
    (.bind (hparameters _) (.last hresult rfl)))
  cases generics gs <;> simp [genericList, signature, parameterList]

end TypeTree

/-! ## 5. Legible trees -/

namespace TypeTree

/-- The kinds of trees. -/
def kinds : List TypeKind := [.native, .array, .tuple, .keyOf, .indexedAccess, .union, .intersection,
  .conditional, .functionSignature, .constructorSignature]

/-- The kinds that may have brackets after them. -/
def bracketedKinds : List TypeKind := [.native, .array, .tuple, .indexedAccess]

/-- The kinds that can only stand as a whole. -/
def wholeKinds : List TypeKind := [.functionSignature, .constructorSignature, .conditional]

theorem kind_mem (t : TypeTree) : t.kind ∈ kinds := by
  cases t <;> simp [kind, kinds]

@[simp] theorem kind_flatten (t : TypeTree) : t.flatten.kind = t.kind := by cases t <;> rfl

theorem inUnion_of_ne {t : TypeTree} (h : t.kind ≠ .union) : t.inUnion = [t] := by
  cases t <;> first
    | rfl
    | exact absurd rfl h

theorem inIntersection_of_ne {t : TypeTree} (h : t.kind ≠ .intersection) : t.inIntersection = [t] := by
  cases t <;> first
    | rfl
    | exact absurd rfl h

/-- **Read back at every level at which its kind can stand.** -/
structure Readable (t : TypeTree) : Prop where
  whole : Whole t.lexemes t.flatten
  joined : t.kind ∉ wholeKinds → Joined t.lexemes t.flatten
  operand : t.kind ∈ .keyOf :: bracketedKinds → Operand t.lexemes t.flatten
  bracketed : t.kind ∈ bracketedKinds → Bracketed t.lexemes t.flatten
  inUnion : t.kind = .union → Series .bar t.lexemes t.flatten.inUnion
  inIntersection : t.kind = .intersection → Series .ampersand t.lexemes t.flatten.inIntersection

namespace Readable

variable {t : TypeTree}

/-- A type that may have brackets after it. -/
theorem of_bracketed (h : Bracketed t.lexemes t.flatten) (hsignature : NoSignature t.lexemes)
    (hkind : t.kind ∈ bracketedKinds) : t.Readable where
  whole := h.operand.joined.whole hsignature
  joined _ := h.operand.joined
  operand _ := h.operand
  bracketed _ := h
  inUnion he := absurd hkind (by rw [he]; decide)
  inIntersection he := absurd hkind (by rw [he]; decide)

/-- A type behind `keyof`. -/
theorem of_keyOf (h : Operand t.lexemes t.flatten) (hsignature : NoSignature t.lexemes)
    (hkind : t.kind = .keyOf) : t.Readable where
  whole := h.joined.whole hsignature
  joined _ := h.joined
  operand _ := h
  bracketed he := absurd he (by rw [hkind]; decide)
  inUnion he := absurd (hkind.symm.trans he) (by decide)
  inIntersection he := absurd (hkind.symm.trans he) (by decide)

/-- A union or an intersection. -/
theorem of_joined (h : Joined t.lexemes t.flatten) (hsignature : NoSignature t.lexemes)
    (hkind : t.kind ∈ [.union, .intersection])
    (hunion : t.kind = .union → Series .bar t.lexemes t.flatten.inUnion)
    (hintersection : t.kind = .intersection → Series .ampersand t.lexemes t.flatten.inIntersection) :
    t.Readable where
  whole := h.whole hsignature
  joined _ := h
  operand he :=
    absurd he ((show ∀ k ∈ [.union, .intersection], k ∉ .keyOf :: bracketedKinds by decide) _ hkind)
  bracketed he :=
    absurd he ((show ∀ k ∈ [.union, .intersection], k ∉ bracketedKinds by decide) _ hkind)
  inUnion := hunion
  inIntersection := hintersection

/-- A type that can only stand as a whole. -/
theorem of_whole (h : Whole t.lexemes t.flatten) (hkind : t.kind ∈ wholeKinds) : t.Readable where
  whole := h
  joined he := absurd hkind he
  operand he := absurd he ((show ∀ k ∈ wholeKinds, k ∉ .keyOf :: bracketedKinds by decide) _ hkind)
  bracketed he := absurd he ((show ∀ k ∈ wholeKinds, k ∉ bracketedKinds by decide) _ hkind)
  inUnion he := absurd hkind (by rw [he]; decide)
  inIntersection he := absurd hkind (by rw [he]; decide)

/-- As a part with brackets after it. -/
theorem asPart (h : t.Readable) (hkeyOf : t.kind ≠ .keyOf)
    (hconstructor : t.kind ≠ .constructorSignature) : Bracketed (t.asPart t.lexemes) t.flatten := by
  have hkinds : ∀ k ∈ kinds, k.isCompound = false → k ≠ .keyOf → k ≠ .constructorSignature →
      k ∈ bracketedKinds := by decide
  unfold TypeTree.asPart
  split
  · exact .enclosed h.whole
  · rename_i hcompound
    exact h.bracketed (hkinds _ t.kind_mem (by simpa using hcompound) hkeyOf hconstructor)

/-- As the target of `keyof`. -/
theorem asTarget (h : t.Readable) (hconstructor : t.kind ≠ .constructorSignature) :
    Operand (t.asPart t.lexemes) t.flatten := by
  by_cases hkeyOf : t.kind = .keyOf
  · have hbare : t.asPart t.lexemes = t.lexemes := by
      unfold TypeTree.asPart
      rw [hkeyOf]
      rfl
    rw [hbare]
    exact h.operand (by rw [hkeyOf]; decide)
  · exact (h.asPart hkeyOf hconstructor).operand

/-- As an operand that is neither of the kind around it nor conditional. -/
theorem asOperand (h : t.Readable) {other same : TypeKind}
    (hother : (other, same) ∈ [(TypeKind.intersection, TypeKind.union), (.union, .intersection)])
    (hsame : t.kind ≠ same) (hconditional : t.kind ≠ .conditional) :
    Operand (t.asOperand other t.lexemes) t.flatten := by
  have hkinds : ∀ x ∈ [(TypeKind.intersection, TypeKind.union), (.union, .intersection)],
      ∀ k ∈ kinds, k ≠ x.2 → k ≠ .conditional →
      ¬ (k = .functionSignature || k = .constructorSignature || k = x.1) →
      k ∈ .keyOf :: bracketedKinds := by decide
  unfold TypeTree.asOperand
  split
  · exact (Bracketed.enclosed h.whole).operand
  · rename_i hbare
    exact h.operand (hkinds _ hother _ t.kind_mem hsame hconditional hbare)

/-- As an operand of a union. -/
theorem series_union (h : t.Readable) (hconditional : t.kind ≠ .conditional) :
    Series .bar (t.asOperand .intersection t.lexemes) t.flatten.inUnion := by
  by_cases hunion : t.kind = .union
  · have hbare : t.asOperand .intersection t.lexemes = t.lexemes := by
      unfold TypeTree.asOperand
      rw [hunion]
      rfl
    rw [hbare]
    exact h.inUnion hunion
  · rw [inUnion_of_ne (by rwa [kind_flatten])]
    exact .single (h.asOperand (by decide) hunion hconditional)

/-- As an operand of an intersection. -/
theorem series_intersection (h : t.Readable) (hconditional : t.kind ≠ .conditional) :
    Series .ampersand (t.asOperand .union t.lexemes) t.flatten.inIntersection := by
  by_cases hintersection : t.kind = .intersection
  · have hbare : t.asOperand .union t.lexemes = t.lexemes := by
      unfold TypeTree.asOperand
      rw [hintersection]
      rfl
    rw [hbare]
    exact h.inIntersection hintersection
  · rw [inIntersection_of_ne (by rwa [kind_flatten])]
    exact .single (h.asOperand (by decide) hintersection hconditional)

/-- Two operands or more are two series. -/
theorem exists_series {separator : Lexeme} {other : TypeKind} {g : TypeTree → List TypeTree}
    {ts : List TypeTree} (hlength : 2 ≤ ts.length)
    (h : ∀ t ∈ ts, Series separator (t.asOperand other t.lexemes) (g t)) :
    ∃ ls ls' us us', ApiReference.joined separator (operands other ts) = ls ++ separator :: ls' ∧
      ts.flatMap g = us ++ us' ∧ Series separator ls us ∧ Series separator ls' us' := by
  rw [operands_eq_map]
  cases ts with
  | nil => cases hlength
  | cons t ts =>
    have hts : ts ≠ [] := by
      rintro rfl
      exact absurd hlength (Nat.lt_irrefl 1)
    have hrest := Series.join hts fun u hu => h u (List.mem_cons_of_mem t hu)
    refine ⟨_, _, _, _, ?_, List.flatMap_cons, h t List.mem_cons_self, hrest⟩
    rw [List.map_cons, joined_cons _ _ (by simpa using hts)]

/-- A union of two operands or more. -/
theorem union {ts : List TypeTree} (hlength : 2 ≤ ts.length) (h : ∀ t ∈ ts, t.Readable)
    (hconditional : ∀ t ∈ ts, t.kind ≠ .conditional)
    (hsignature : NoSignature (TypeTree.union ts).lexemes) : (TypeTree.union ts).Readable := by
  obtain ⟨ls, ls', us, us', hls, hus, hfirst, hrest⟩ := exists_series hlength fun t ht =>
    (h t ht).series_union (hconditional t ht)
  have hflatten : (TypeTree.union ts).flatten = .union (us ++ us') := by
    rw [flatten, flattenAll_eq_map, List.flatMap_map, hus]
  have hlexemes : (TypeTree.union ts).lexemes = ls ++ .bar :: ls' := hls
  refine of_joined ?_ hsignature List.mem_cons_self (fun _ => ?_) fun he => nomatch he
  · rw [hlexemes, hflatten]
    exact hfirst.union hrest
  · rw [hlexemes, hflatten]
    exact hfirst.append hrest

/-- An intersection of two operands or more. -/
theorem intersection {ts : List TypeTree} (hlength : 2 ≤ ts.length) (h : ∀ t ∈ ts, t.Readable)
    (hconditional : ∀ t ∈ ts, t.kind ≠ .conditional)
    (hsignature : NoSignature (TypeTree.intersection ts).lexemes) :
    (TypeTree.intersection ts).Readable := by
  obtain ⟨ls, ls', us, us', hls, hus, hfirst, hrest⟩ := exists_series hlength fun t ht =>
    (h t ht).series_intersection (hconditional t ht)
  have hflatten : (TypeTree.intersection ts).flatten = .intersection (us ++ us') := by
    rw [flatten, flattenAll_eq_map, List.flatMap_map, hus]
  have hlexemes : (TypeTree.intersection ts).lexemes = ls ++ .ampersand :: ls' := hls
  refine of_joined ?_ hsignature (List.mem_cons_of_mem _ List.mem_cons_self) (fun he => nomatch he)
    fun _ => ?_
  · rw [hlexemes, hflatten]
    exact hfirst.intersection hrest
  · rw [hlexemes, hflatten]
    exact hfirst.append hrest

end Readable

/-- **Legible trees are read back**, with nested unions and intersections dissolved. -/
theorem Legible.readable {t : TypeTree} (h : t.Legible) : t.Readable := by
  induction h with
  | native hname =>
    exact .of_bracketed (.native _) (fun _ => rfl) (show TypeKind.native ∈ bracketedKinds by decide)
  | array he hkeyOf hconstructor ih =>
    refine .of_bracketed (ih.asPart hkeyOf hconstructor).array ?_
      (show TypeKind.array ∈ bracketedKinds by decide)
    exact (Legible.array he hkeyOf hconstructor).noSignature
      (show TypeKind.array ≠ .functionSignature by decide)
      (show TypeKind.array ≠ .constructorSignature by decide)
  | tuple hes ih =>
    refine .of_bracketed ?_ (fun _ => rfl) (show TypeKind.tuple ∈ bracketedKinds by decide)
    rw [lexemes, flatten, lexemesAll_eq_map, flattenAll_eq_map]
    refine .tuple ?_ (List.forall_mem_map.2 fun e he => (hes e he).begins)
    rw [List.forall₂_map_left_iff, List.forall₂_map_right_iff, List.forall₂_same]
    exact fun e he => (ih e he).whole
  | keyOf ht hconstructor ih =>
    exact .of_keyOf (ih.asTarget hconstructor).keyOf (fun _ => rfl) rfl
  | indexedAccess ht hkeyOf hconstructor hk iht ihk =>
    refine .of_bracketed ((iht.asPart hkeyOf hconstructor).indexedAccess ihk.whole hk.begins) ?_
      (show TypeKind.indexedAccess ∈ bracketedKinds by decide)
    exact (Legible.indexedAccess ht hkeyOf hconstructor hk).noSignature
      (show TypeKind.indexedAccess ≠ .functionSignature by decide)
      (show TypeKind.indexedAccess ≠ .constructorSignature by decide)
  | union hlength hts hconditional ih =>
    exact .union hlength ih hconditional ((Legible.union hlength hts hconditional).noSignature
      (show TypeKind.union ≠ .functionSignature by decide)
      (show TypeKind.union ≠ .constructorSignature by decide))
  | intersection hlength hts hconditional ih =>
    exact .intersection hlength ih hconditional
      ((Legible.intersection hlength hts hconditional).noSignature
        (show TypeKind.intersection ≠ .functionSignature by decide)
        (show TypeKind.intersection ≠ .constructorSignature by decide))
  | conditional hc hconditional hfunction hconstructor he hy hn ihc ihe ihy ihn =>
    refine .of_whole ?_ (show TypeKind.conditional ∈ wholeKinds by decide)
    -- the checked type is of a kind that is read as an operand, so the reader stops before the
    -- condition
    have hkind : ∀ k ∈ kinds, k ≠ .conditional → k ≠ .functionSignature →
      k ≠ .constructorSignature → k ∉ wholeKinds := by decide
    exact (ihc.joined (hkind _ (kind_mem _) hconditional hfunction hconstructor)).conditional
      (hc.noSignature hfunction hconstructor) ihe.whole ihy.whole ihn.whole
  | function _ _ _ _ _ _ ihc ihd ihp ihr =>
    exact .of_whole (whole_function (fun g hg t ht => (ihc g hg t ht).whole)
      (fun g hg t ht => (ihd g hg t ht).whole) (fun p hp => (ihp p hp).whole) ihr.whole)
      (show TypeKind.functionSignature ∈ wholeKinds by decide)
  | constructor _ _ _ ihp ihr =>
    exact .of_whole (whole_constructor (fun p hp => (ihp p hp).whole) ihr.whole)
      (show TypeKind.constructorSignature ∈ wholeKinds by decide)

/-! ## 6. Trees written alike -/

/-- **Legible trees that are written alike are the same**, up to nested unions and intersections. -/
theorem flatten_of_chars {t t' : TypeTree} (h : t.Legible) (h' : t'.Legible)
    (hchars : charsOf t.lexemes = charsOf t'.lexemes) : t.flatten = t'.flatten := by
  have hlexemes : t.lexemes = t'.lexemes := h.glued.eq_of_chars h'.glued hchars
  have hwhole := h.readable.whole
  rw [hlexemes] at hwhole
  obtain ⟨n, hn, hn'⟩ := (hwhole.and h'.readable.whole).exists
  have hsame := (hn [] .nil).symm.trans (hn' [] .nil)
  exact (Prod.mk.inj (Option.some.inj hsame)).1

end TypeTree

end ApiReference
