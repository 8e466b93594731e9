/-
  The documentation model: the records of members, types and units.

  Symbols and types that the facts leave missing are keys like any other; all references to a missing
  one share one record.
-/
import ApiReference.Model.Records
import ApiReference.Registry

namespace ApiReference

/-- **The documentation model of one compilation.**  Members belong to symbols, type records to types,
    units to positions in the compilation. -/
structure Model where
  members : Registry (Option SymbolId) Member := {}
  types : Registry (Option TypeRef) TypeExpr := {}
  units : Registry Nat UnitRecord := {}
deriving Inhabited

namespace Model

variable (m : Model)

/-- The member of a handle. -/
def member (h : MemberHandle) : Member := m.members.recordAt h.index

/-- The type record of a handle. -/
def type (h : TypeHandle) : TypeExpr := m.types.recordAt h.index

/-- The unit record of a handle. -/
def unit (h : UnitHandle) : UnitRecord := m.units.recordAt h.index

/-- The short form of a type record, for messages: its first label that counts as set. -/
def typeShortForm (t : TypeExpr) : String :=
  let labels := [t.name.map Value.str, t.value.map Value.str, t.member.map (fun h => (m.member h).name)]
  match (labels.filterMap id).find? Value.isTrue with
  | some label => "DocType(" ++ t.kind.word ++ " " ++ label.quoted ++ ")"
  | none => "DocType(" ++ t.kind.word ++ ")"

end Model

end ApiReference
