/-
  What a run takes from its surroundings.

  The directory in which the documentation is made, the reading of patterns and the size of the call
  stack belong to the machine that a run is made on and not to the facts.  Fillings ask for each other
  on the call stack, and so do the steps of a walk along base types, so a stack holds a number of them
  one inside the other and no more.

  1. `Host`        -- what is taken;
  2. `Host.plain`  -- a host to run on.
-/
import ApiReference.Naming
import ApiReference.Text.Pattern

namespace ApiReference

/-! ## 1. Hosts -/

/-- **What a run takes from its surroundings.** -/
structure Host where
  /-- the directory that module paths are shown relative to -/
  directory : List PathName
  /-- the search of a written pattern, where the pattern can be read -/
  pattern? : String → Option (String → Bool)
  /-- how many fillings the call stack holds one inside the other -/
  fillings : Nat
  /-- how many base types a walk may be deep in until the call stack is full -/
  steps : Nat

/-! ## 2. A host to run on -/

/-- **A host with a stack of a thousand frames**: a step along base types takes one, and the filling of a
    record takes about seven before it asks for the next. -/
def Host.plain : Host where
  directory := plainDirectory
  pattern? s := (Pattern.parse? s).map Pattern.search
  fillings := 150
  steps := 900

instance : Inhabited Host := ⟨.plain⟩

end ApiReference
