/-
  Rendered type expressions are lists of tokens.

  A token shows a piece of text in a role.  Content that would make the list too long is folded into
  one token that keeps it as details, and a type that contains itself is cut off by a marker.

  1. `Token`          -- the tokens, and their visible text;
  2. `joinWith`       -- entries with a separator between them;
  3. `slice`          -- a part of a list between two bounds counted from either end;
  4. `Limits`, `truncate` -- long lists keep both ends and fold the middle.
-/
import ApiReference.Model.Basic

namespace ApiReference

/-! ## 1. Tokens -/

/-- The role of a token. -/
inductive TokenKind where
  | builtin
  | name
  | property
  | number
  | string
  | keyword
  | operator
  | punctuation
  | more
  | circular
deriving DecidableEq, Repr, Inhabited

/-- The word of a role. -/
def TokenKind.word : TokenKind → String
  | .builtin => "builtin"
  | .name => "name"
  | .property => "property"
  | .number => "number"
  | .string => "string"
  | .keyword => "keyword"
  | .operator => "operator"
  | .punctuation => "punctuation"
  | .more => "more"
  | .circular => "circular"

/-- **A token.**  Names come from the facts as they are, so the text of a token may be a value that
    is no text. -/
inductive Token where
  /-- a visible piece, with the member it names -/
  | piece (kind : TokenKind) (text : Value) (member : Option MemberHandle)
  /-- a visible piece that hides others -/
  | folded (kind : TokenKind) (text : String) (details : List Token)
  /-- the place where a type contains itself -/
  | circular (type : TypeHandle)
deriving Repr, Inhabited

namespace Token

/-- A piece of text in a role. -/
def plain (kind : TokenKind) (text : String) : Token := .piece kind (.str text) none

/-- Punctuation. -/
def punct (text : String) : Token := plain .punctuation text

/-- The role of a token. -/
def kind : Token → TokenKind
  | .piece k _ _ => k
  | .folded k _ _ => k
  | .circular _ => .circular

/-- The visible text of a token. -/
def text : Token → Value
  | .piece _ t _ => t
  | .folded _ t _ => .str t
  | .circular _ => .str "(circular)"

/-- **The visible text of a token list**; every token must show a text. -/
def visibleText : List Token → Except Fault String
  | [] => .ok ""
  | t :: r => match t.text with
    | .str s => do return s ++ (← visibleText r)
    | _ => .error .notText

end Token

/-! ## 2. Joining -/

/-- The entries in order, with a separator between any two. -/
def joinWith (separator : String) : List (List Token) → List Token
  | [] => []
  | [e] => e
  | e :: r => e ++ Token.punct separator :: joinWith separator r

/-- Parentheses around tokens; a single token needs none. -/
def parenthesize (ts : List Token) : List Token :=
  match ts with
  | [t] => [t]
  | _ => Token.punct "(" :: (ts ++ [Token.punct ")"])

/-! ## 3. Slices -/

/-- A bound as a position: a negative one counts from the end, and none leaves the list. -/
def clampBound (length : Nat) (i : Int) : Nat :=
  if i < 0 then (i + length).toNat else min i.toNat length

/-- **The elements from one bound up to another.** -/
def slice {α : Type} (xs : List α) (start stop : Int) : List α :=
  (xs.take (clampBound xs.length stop)).drop (clampBound xs.length start)

theorem clampBound_natCast {n length : Nat} (h : n ≤ length) : clampBound length n = n := by
  have hn : ¬ ((n : Int) < 0) := by omega
  simp only [clampBound, hn, if_false, Int.toNat_natCast]
  omega

/-- Two bounds in order cut a list into three parts, and none is lost. -/
theorem slice_append {α : Type} (xs : List α) {a b : Nat} (hab : a ≤ b) (hb : b ≤ xs.length) :
    slice xs 0 a ++ slice xs a b ++ slice xs b xs.length = xs := by
  have h0 : clampBound xs.length 0 = 0 := clampBound_natCast (Nat.zero_le xs.length)
  simp only [slice, h0, clampBound_natCast (Nat.le_trans hab hb), clampBound_natCast hb,
    clampBound_natCast (Nat.le_refl xs.length), List.drop_zero, List.take_length]
  rw [show xs.take a = (xs.take b).take a by rw [List.take_take, Nat.min_eq_left hab],
    List.take_append_drop, List.take_append_drop]

/-! ## 4. Long lists -/

/-- **How much of a long expression is shown.** -/
structure Limits where
  /-- longer lists are truncated -/
  maxItems : Int := 10
  /-- entries shown at the start of a truncated list -/
  headItems : Int := 3
  /-- entries shown at the end of a truncated list -/
  tailItems : Int := 2
  /-- nested functions with more tokens are collapsed -/
  collapseNodes : Int := 20
deriving DecidableEq, Repr, Inhabited

/-- The entries that a truncated list shows first. -/
def Limits.headOf {α : Type} (l : Limits) (entries : List α) : List α := slice entries 0 l.headItems

/-- The entries that a truncated list hides. -/
def Limits.hiddenOf {α : Type} (l : Limits) (entries : List α) : List α :=
  slice entries l.headItems (entries.length - l.tailItems)

/-- The entries that a truncated list shows last. -/
def Limits.tailOf {α : Type} (l : Limits) (entries : List α) : List α :=
  slice entries (entries.length - l.tailItems) entries.length

/-- **A list within the limits**: a longer one keeps both ends, and one token stands for the rest. -/
def Limits.truncate (l : Limits) (separator : String) (entries : List (List Token)) :
    List (List Token) :=
  if (entries.length : Int) ≤ l.maxItems then entries
  else
    let hidden := l.hiddenOf entries
    let marker := Token.folded .more ("+" ++ toString hidden.length ++ " more")
      (joinWith separator hidden)
    l.headOf entries ++ [marker] :: l.tailOf entries

end ApiReference
