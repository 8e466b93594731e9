/-
  Merging settings over defaults.

  `merge base update` takes every entry of `update`: where both sides have a map the maps are merged
  in turn, anywhere else the update replaces what was there.  Keys keep the order of the base, new
  keys follow in the order of the update.
-/
import ApiReference.Data.Value

namespace ApiReference.Value

mutual

/-- The merged value of one key: maps merge, anything else is replaced. -/
def mergeValue (update : Value) (base : Option Value) : Value :=
  match update, base with
  | .map us, some (.map bs) => .map (mergeEntries us bs)
  | u, _ => u

/-- **The entries of a base map with those of an update over them.** -/
def mergeEntries : (update base : List (String × Value)) → List (String × Value)
  | [], base => base
  | (k, u) :: r, base => mergeEntries r (insert k (mergeValue u (lookup k base)) base)

end

/-- **Merging two values.**  The update must be a map.  A list is a base without named entries, so
    only an update without entries leaves it as it is. -/
def merge (base update : Value) : Except Fault Value := do
  let us ← update.fields
  match base with
  | .map bs => .ok (.map (mergeEntries us bs))
  | .list xs => if us.isEmpty then .ok (.list xs) else .error .notIndexable
  | _ => .error .noField

end ApiReference.Value
