/-
  The four families of classification bits, and the spelling of flag names.

  A fact document writes flags by name, in one of two spellings: words run together
  (`ValueModule`, `ESSymbol`) or words joined by underscores (`value_module`).  Both denote the
  entry `VALUE_MODULE` of the family's table.

  1. `FlagFamily`  -- symbol, type, object and modifier flags, with the label used in messages;
  2. `Flags`       -- a set of bits of one family.
-/
namespace ApiReference

/-- **The families of flags.** -/
inductive FlagFamily where
  /-- what a symbol is -/
  | symbol
  /-- what a type is -/
  | type
  /-- what an object type is -/
  | object
  /-- the modifiers written on a declaration -/
  | modifier
deriving DecidableEq, Repr, Inhabited

/-- The family's label in messages. -/
def FlagFamily.label : FlagFamily → String
  | .symbol => "SymbolFlags"
  | .type => "TypeFlags"
  | .object => "ObjectFlags"
  | .modifier => "ModifierFlags"

/-- **A set of flags of one family**, as the sum of its bits. -/
structure Flags (family : FlagFamily) where
  bits : Nat
deriving DecidableEq, Repr

namespace Flags

variable {family : FlagFamily}

/-- No flag. -/
def empty : Flags family := ⟨0⟩

instance : EmptyCollection (Flags family) := ⟨empty⟩

instance : Inhabited (Flags family) := ⟨empty⟩

/-- All flags of both sets. -/
def union (a b : Flags family) : Flags family := ⟨a.bits ||| b.bits⟩

instance : Union (Flags family) := ⟨union⟩

/-- **Do two sets share a flag?** -/
def meets (a b : Flags family) : Bool := a.bits &&& b.bits != 0

/-- A single flag, by its bit number. -/
def bit (n : Nat) : Flags family := ⟨1 <<< n⟩

end Flags

end ApiReference
