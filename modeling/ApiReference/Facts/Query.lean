/-
  Questions about linked facts.

  1. `chain`           -- the walk along a link, cut before its first repeated node;
  2. symbols           -- value declaration, type, declaring parent, alias target, display name and
                          dotted id;
  3. types             -- properties, members by name, arrays, tuples, raw text;
  4. units             -- look-up by name or path.

  `propertiesOf` and `lookupMember` walk the base types of classes and interfaces.  A walk deeper
  than the number of types has met some type twice on its path and would go round for ever, so
  running out of depth is exactly the fault `endless`.  The call stack is taken to hold these walks;
  those that a build makes are cut where the stack of its host is full.
-/
import ApiReference.Facts.Basic
import ApiReference.Text.Basic

namespace ApiReference

/-! ## 1. Chains -/

/-- **Following a link.**  The nodes from `a` on, each the successor of the one before, cut before
    the first node that is already among them; `fuel` bounds the length. -/
def chain {α : Type} [DecidableEq α] (next : α → Option α) : (fuel : Nat) → (seen : List α) → α → List α
  | 0, _, _ => []
  | n + 1, seen, a =>
    if a ∈ seen then []
    else match next a with
      | none => [a]
      | some b => a :: chain next n (a :: seen) b

/-- A chain meets no node twice, and none that was met before. -/
theorem chain_nodup {α : Type} [DecidableEq α] (next : α → Option α) (n : Nat) (seen : List α)
    (a : α) : (chain next n seen a).Nodup ∧ ∀ x ∈ chain next n seen a, x ∉ seen := by
  induction n generalizing seen a with
  | zero => simp [chain]
  | succ n ih =>
    simp only [chain]
    split
    · simp
    · rename_i ha
      split
      · simp [ha]
      · rename_i b _
        obtain ⟨hn, hs⟩ := ih (a :: seen) b
        refine ⟨List.nodup_cons.2 ⟨fun h => hs a h (by simp), hn⟩, ?_⟩
        intro x hx
        rcases List.mem_cons.1 hx with rfl | hx
        · exact ha
        · exact fun h => hs x hx (List.mem_cons_of_mem _ h)

namespace Facts

variable (f : Facts)

/-! ## 2. Symbols -/

/-- **The value declaration**: the recorded one, else the first declaration. -/
def valueDeclaration (s : SymbolId) : Option DeclarationId :=
  match (f.symbol s).valueDeclaration with
  | some d => some d
  | none => (f.symbol s).declarations.head?.join

/-- The type of a symbol's value, the error type where none is recorded. -/
def typeOfSymbol (s : SymbolId) : TypeRef := .orError (f.symbol s).type

/-- **The declaring parent**, unless it is a source file. -/
def parentOf (s : SymbolId) : Option SymbolId :=
  match (f.symbol s).parent with
  | some p => if (f.symbol p).sourceFile then none else some p
  | none => none

/-- **The final target of an alias**: the end of the chain of alias links, or the first symbol that
    the chain meets again. -/
def aliasedSymbol (s : SymbolId) : SymbolId :=
  let next := fun t => (f.symbol t).aliasTarget
  match (chain next (f.symbols.length + 1) [] s).getLast? with
  | some last => (next last).getD last
  | none => s

/-- The symbols from `s` outward along declaring parents. -/
def outward (s : SymbolId) : List SymbolId := chain f.parentOf (f.symbols.length + 1) [] s

/-- The escaped name as a part of an id. -/
def idPart (s : SymbolId) : String := Text.replaceChar (f.symbol s).escapedName '#' '@'

/-- **The dotted id of a symbol**: the escaped names of its declaring parents, outermost first. -/
def symbolId (s : SymbolId) : String := ".".intercalate ((f.outward s).reverse.map f.idPart)

/-- The names of the pseudo-members of a type. -/
def callName : String := "__call"
def constructorName : String := "__constructor"
def newName : String := "__new"
def indexName : String := "__index"

/-- The display name of a pseudo-member. -/
def bracketName? (name : String) : Option String :=
  if name = callName then some "()"
  else if name = constructorName ∨ name = newName then some "new()"
  else if name = indexName then some "[]"
  else none

/-- **The display name of a symbol.**  Pseudo-members show brackets; another reserved name shows the
    binding pattern of its declaration, if that counts as set. -/
def symbolName (s : SymbolId) : Value :=
  let name := (f.symbol s).name
  if Text.startsWith name "__" then
    match bracketName? name with
    | some b => .str b
    | none =>
      match f.valueDeclaration s with
      | some d =>
        let pattern := (f.declaration d).bindingPattern
        if pattern.isTrue then pattern else .str name
      | none => .str name
  else .str name

/-! ## 3. Types -/

/-- Adds the properties whose escaped names are not taken yet. -/
def addUnshadowed (names : List String) (done : List (Option SymbolId)) :
    List (Option SymbolId) → Except Fault (List String × List (Option SymbolId))
  | [] => .ok (names, done)
  | p :: r => do
    let name := (f.symbol (← present p)).escapedName
    if names.contains name then addUnshadowed names done r
    else addUnshadowed (name :: names) (done ++ [p]) r

/-- The properties of a type, walking at most `depth` base types deep. -/
def propertiesWithin : (depth : Nat) → Option TypeRef → Except Fault (List (Option SymbolId))
  | 0, _ => .error .endless
  | n + 1, t => do
    let facts := f.type (← present t)
    let own := facts.properties
    if facts.objectFlags.meets ObjectFlags.classesAndInterfaces then
      let names ← own.mapM (fun p => do return (f.symbol (← present p)).escapedName)
      let (_, all) ← facts.baseTypes.foldlM (fun (names, done) base => do
        f.addUnshadowed names done (← propertiesWithin n (base.map .known))) (names, own)
      return all
    else return own

/-- How deep a walk along base types can go without repeating itself. -/
def baseDepth : Nat := f.types.length + 2

/-- **The properties of a type**: its own, then the inherited ones that no earlier one shadows. -/
def propertiesOf (t : Option TypeRef) : Except Fault (List (Option SymbolId)) :=
  f.propertiesWithin f.baseDepth t

/-- A member from the member table of a type's own symbol. -/
def ownMember (t : Option TypeRef) (name : String) : Except Fault (Option SymbolId) := do
  match (f.type (← present t)).symbol with
  | none => return none
  | some s => return ((f.symbol s).members.lookup name).join

/-- The first result along a list. -/
def firstFound {α β : Type} (find : α → Except Fault (Option β)) : List α → Except Fault (Option β)
  | [] => .ok none
  | a :: r => do
    match ← find a with
    | some b => return some b
    | none => firstFound find r

/-- A member of a type or of its base types, walking at most `depth` base types deep. -/
def lookupWithin (name : String) : (depth : Nat) → Option TypeRef → Except Fault (Option SymbolId)
  | 0, _ => .error .endless
  | n + 1, t => do
    match ← f.ownMember t name with
    | some s => return some s
    | none =>
      let facts := f.type (← present t)
      if facts.objectFlags.meets ObjectFlags.classesAndInterfaces then
        firstFound (fun base => lookupWithin name n (base.map .known)) facts.baseTypes
      else return none

/-- **A member by name**: from the type's own table, else from the first base type that has it. -/
def lookupMember (t : Option TypeRef) (name : String) : Except Fault (Option SymbolId) :=
  f.lookupWithin name f.baseDepth t

/-- Is the type a reference to the array type? -/
def isArrayType (t : TypeFacts) : Bool :=
  t.array || (t.objectFlags.meets ObjectFlags.references &&
    match t.target with
    | none => false
    | some target => match (f.type (.known target)).symbol with
      | none => false
      | some s => (f.symbol s).name == "Array" || (f.symbol s).name == "ReadonlyArray")

/-- Is the type a reference to a tuple type? -/
def isTupleType (t : TypeFacts) : Bool :=
  t.tuple || match t.target with
    | none => false
    | some target => (f.type (.known target)).objectFlags.meets ObjectFlags.tuples

/-- The element type of an array, the error type where none is recorded. -/
def elementType (t : TypeFacts) : Option TypeRef :=
  match t.typeArguments with
  | [] => some .error
  | e :: _ => e.map .known

/-- The type without an optional wrapper: the recorded form, else itself. -/
def stripOptional (t : TypeRef) : TypeRef :=
  match (f.type t).nonOptional with
  | some s => .known s
  | none => t

/-- The checker's own text of a type: the recorded text, else the best name there is. -/
def typeText (t : TypeRef) : String :=
  let facts := f.type t
  if facts.text != "" then facts.text
  else match facts.aliasSymbol with
    | some s => (f.symbol s).name
    | none =>
      if facts.intrinsicName != "" then facts.intrinsicName
      else match facts.symbol with
        | some s => (f.symbol s).name
        | none => match facts.value with
          | .null => "unknown"
          | v => v.text

/-! ## 4. Units -/

/-- The position of the first unit with the given name or path. -/
def findUnit? (name : String) : Option Nat :=
  f.units.findIdx? (fun u => name == u.name || name == u.path)

end Facts

end ApiReference
