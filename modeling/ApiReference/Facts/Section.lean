/-
  The tables of a fact document.

  Symbols, declarations, signatures and types are declared once under an id and referred to by that
  id elsewhere; units are a plain list.
-/
namespace ApiReference

/-- **The tables whose entries have ids.** -/
inductive Section where
  | symbols
  | declarations
  | signatures
  | types
deriving DecidableEq, Repr, Inhabited

/-- The key of the table in the document. -/
def Section.key : Section → String
  | .symbols => "symbols"
  | .declarations => "declarations"
  | .signatures => "signatures"
  | .types => "types"

/-- What one entry of the table is called in messages. -/
def Section.entry : Section → String
  | .symbols => "symbol"
  | .declarations => "declaration"
  | .signatures => "signature"
  | .types => "type"

end ApiReference
