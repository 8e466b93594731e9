/-
  The modifiers of a documented member.

  Sixteen modifiers: visibility, traits, and marks set by documentation tags.  A set of modifiers is
  the sum of their bits; bits beyond the sixteen are carried along and have no name.

  1. `Modifier`, `Modifiers`        -- one modifier, a set of them;
  2. `Modifiers.names`              -- the names of a set, in bit order;
  3. `defaultAccessibility`         -- the visibility that a bare name implies.
-/
import ApiReference.Text.Basic

namespace ApiReference

/-! ## 1. Modifiers and sets of them -/

/-- **The modifiers**, in bit order. -/
inductive Modifier where
  | export_
  | exportDefault
  | public_
  | private_
  | protected_
  | internal
  | static
  | optional
  | readOnly
  | virtual
  | abstract_
  | final
  | generator
  | async
  | deprecated
  | experimental
deriving DecidableEq, Repr, Inhabited

namespace Modifier

/-- All modifiers, in bit order. -/
def all : List Modifier :=
  [.export_, .exportDefault, .public_, .private_, .protected_, .internal, .static, .optional,
   .readOnly, .virtual, .abstract_, .final, .generator, .async, .deprecated, .experimental]

/-- The bit number of a modifier. -/
def bit : Modifier → Nat
  | .export_ => 0
  | .exportDefault => 1
  | .public_ => 2
  | .private_ => 3
  | .protected_ => 4
  | .internal => 5
  | .static => 6
  | .optional => 7
  | .readOnly => 8
  | .virtual => 9
  | .abstract_ => 10
  | .final => 11
  | .generator => 12
  | .async => 13
  | .deprecated => 14
  | .experimental => 15

/-- The name of a modifier in dumped data. -/
def name : Modifier → String
  | .export_ => "export"
  | .exportDefault => "export_default"
  | .public_ => "public"
  | .private_ => "private"
  | .protected_ => "protected"
  | .internal => "internal"
  | .static => "static"
  | .optional => "optional"
  | .readOnly => "read_only"
  | .virtual => "virtual"
  | .abstract_ => "abstract"
  | .final => "final"
  | .generator => "generator"
  | .async => "async"
  | .deprecated => "deprecated"
  | .experimental => "experimental"

/-- The modifier of a name. -/
def ofName? (s : String) : Option Modifier := all.find? (fun m => m.name == s)

theorem bit_injective {a b : Modifier} (h : a.bit = b.bit) : a = b := by
  revert h
  cases a <;> cases b <;> decide

/-- The four levels of visibility. -/
def isAccessibility : Modifier → Bool
  | .public_ | .private_ | .protected_ | .internal => true
  | _ => false

end Modifier

/-- **A set of modifiers**, as the sum of their bits. -/
structure Modifiers where
  bits : Nat := 0
deriving DecidableEq, Repr, Inhabited

namespace Modifiers

instance : EmptyCollection Modifiers := ⟨⟨0⟩⟩

/-- The set with one more modifier. -/
def insert (s : Modifiers) (m : Modifier) : Modifiers := ⟨s.bits ||| 1 <<< m.bit⟩

/-- **Is a modifier in the set?** -/
def has (s : Modifiers) (m : Modifier) : Bool := s.bits.testBit m.bit

/-- A set has what it had, and what was inserted. -/
theorem has_insert (s : Modifiers) (a b : Modifier) :
    (s.insert a).has b = (s.has b || decide (a = b)) := by
  simp only [has, insert, Nat.testBit_or, Nat.one_shiftLeft, Nat.testBit_two_pow]
  by_cases h : a = b
  · simp [h]
  · have hb : a.bit ≠ b.bit := fun e => h (Modifier.bit_injective e)
    simp [h, hb]

/-- The set with a modifier if a condition holds. -/
def insertIf (s : Modifiers) (b : Bool) (m : Modifier) : Modifiers := if b then s.insert m else s

/-- The set of a number, by the bits of its two's complement; bits that no modifier has are left
    out. -/
def ofInt (n : Int) : Modifiers := ⟨(n % 65536).toNat⟩

/-- The set of a list of modifiers. -/
def ofList (ms : List Modifier) : Modifiers := ms.foldl insert ∅

/-! ## 2. Names -/

/-- **The names of the modifiers in a set**, in bit order. -/
def names (s : Modifiers) : List String := (Modifier.all.filter s.has).map Modifier.name

end Modifiers

/-! ## 3. Visibility by name -/

/-- **The visibility that a name implies.**  A leading underscore makes it internal, unless the name
    ends in a double underscore; a leading double underscore only when the name also ends in one. -/
def defaultAccessibility (name : String) : Modifier :=
  if Text.startsWith name "_" && Text.startsWith name "__" == Text.endsWith name "__" then .internal else .public_

end ApiReference
