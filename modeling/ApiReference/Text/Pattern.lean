/-
  Event patterns.

  A pattern tells which property names are events.  It is a sequence of characters and character
  sets, with marks for the start and the end of the name, and it is searched anywhere in the name.
  Written patterns with escapes, groups, repetitions or alternatives are none of these, and are not
  read here.

  1. `CharSet`, `Atom`, `Pattern`;
  2. `Pattern.parse?`   -- the written form: `^`, `$`, `.`, `[a-z]`, `[^a-z]`, characters;
  3. `Pattern.search`   -- the search.  The end mark also matches before one final line feed.
-/
namespace ApiReference

/-! ## 1. Patterns -/

/-- A set of characters. -/
inductive CharSet where
  | single (c : Char)
  /-- any character but a line feed -/
  | any
  /-- the characters of some closed ranges, or all others -/
  | ranges (negated : Bool) (rs : List (Char × Char))
deriving Repr, Inhabited, DecidableEq

/-- Is the character in the set? -/
def CharSet.holds : CharSet → Char → Bool
  | .single c, d => c == d
  | .any, d => d != '\n'
  | .ranges negated rs, d => negated != rs.any (fun r => r.1 ≤ d && d ≤ r.2)

/-- One step of a pattern. -/
inductive Atom where
  | start
  | stop
  | one (set : CharSet)
deriving Repr, Inhabited, DecidableEq

/-- **A pattern**: its steps in order. -/
structure Pattern where
  atoms : List Atom
deriving Repr, Inhabited, DecidableEq

namespace Pattern

/-! ## 2. Reading -/

/-- The ranges of a set up to its closing bracket.  A bracket that comes first is a member, and so is a
    hyphen that comes last; an escape is not read. -/
def parseRanges? : (fuel : Nat) → (done : List (Char × Char)) → List Char →
    Option (List (Char × Char) × List Char)
  | 0, _, _ => none
  | _ + 1, _, [] => none
  | n + 1, done, a :: r =>
    if a = ']' && !done.isEmpty then some (done.reverse, r)
    else if a = '\\' then none
    else match r with
      | '-' :: b :: s =>
        if b = ']' then parseRanges? n ((a, a) :: done) r
        else if b = '\\' then none
        else if a ≤ b then parseRanges? n ((a, b) :: done) s
        else none
      | _ => parseRanges? n ((a, a) :: done) r

/-- The characters of escapes, groups, repetitions and alternatives. -/
def isSpecial (c : Char) : Bool := ['(', ')', '*', '+', '?', '|', '\\', '\x7b'].contains c

/-- The steps of a written pattern. -/
def parseAtoms? : (fuel : Nat) → List Char → Option (List Atom)
  | _, [] => some []
  | 0, _ :: _ => none
  | n + 1, '^' :: r => (parseAtoms? n r).map (.start :: ·)
  | n + 1, '$' :: r => (parseAtoms? n r).map (.stop :: ·)
  | n + 1, '.' :: r => (parseAtoms? n r).map (.one .any :: ·)
  | n + 1, '[' :: '^' :: r => do
    let (rs, r) ← parseRanges? (r.length + 1) [] r
    return .one (.ranges true rs) :: (← parseAtoms? n r)
  | n + 1, '[' :: r => do
    let (rs, r) ← parseRanges? (r.length + 1) [] r
    return .one (.ranges false rs) :: (← parseAtoms? n r)
  | n + 1, c :: r => if isSpecial c then none else (parseAtoms? n r).map (.one (.single c) :: ·)

/-- **Reading a pattern.**  What is read has the meaning that regular expressions give it. -/
def parse? (s : String) : Option Pattern := (parseAtoms? s.toList.length s.toList).map .mk

/-! ## 3. Searching -/

/-- Do the steps match here? -/
def matchHere : List Atom → (atStart : Bool) → List Char → Bool
  | [], _, _ => true
  | .start :: r, atStart, cs => atStart && matchHere r atStart cs
  | .stop :: r, atStart, cs => (cs == [] || cs == ['\n']) && matchHere r atStart cs
  | .one _ :: _, _, [] => false
  | .one set :: r, _, c :: cs => set.holds c && matchHere r false cs

/-- Do the steps match here or further on? -/
def searchFrom (p : Pattern) (atStart : Bool) : List Char → Bool
  | [] => matchHere p.atoms atStart []
  | c :: cs => matchHere p.atoms atStart (c :: cs) || searchFrom p false cs

/-- **Does the pattern match anywhere in the text?** -/
def search (p : Pattern) (s : String) : Bool := searchFrom p true s.toList

end Pattern

end ApiReference
