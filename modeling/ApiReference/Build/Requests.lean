/-
  Requests to a model.

  Fillings ask for records through requests, and requests run fillings: `requests` ties the two.
  Fillings nest on the call stack, and one that the stack of the host does not hold ends in a fault.
  Each registers a symbol, a type or a unit that had no record, so they never nest deeper than there
  are such symbols, types and units.

  1. `requests`            -- the knot;
  2. units;
  3. expansions and branches, worked out on first use;
  4. `settled`             -- a rendering that resolves the branches it meets.
-/
import ApiReference.Build.Members
import ApiReference.Build.Types
import ApiReference.Dump

namespace ApiReference

namespace Build

variable (cx : Context)

/-! ## 1. The knot -/

/-- **Requests with a bound on their nesting.** -/
def requestsWithin : (room : Nat) → Requests
  | 0 =>
    { member := requestMember (fun _ _ => throw .endless)
      type := requestType (fun _ _ => throw .endless) }
  | n + 1 =>
    { member := requestMember (fillMember cx (requestsWithin n))
      type := requestType (fillTypeExpr cx (requestsWithin n)) }

/-- **The requests of a build**, whose fillings nest as deep as the call stack holds them. -/
def requests : Requests := requestsWithin cx cx.host.fillings

/-- The member record of a symbol. -/
def symbolMember (s : SymbolId) : Build MemberHandle := (requests cx).member (some s)

/-- The record of a type. -/
def typeRecord (t : TypeRef) : Build TypeHandle := (requests cx).type (some t)

/-! ## 2. Units -/

/-- The fields of a unit, then its members. -/
def fillUnit (r : Requests) (root : SymbolId) (u : UnitFacts) (h : UnitHandle) : Build PUnit := do
  modifyUnit h (fun record =>
    { ({ record with path := u.path, name := u.name, isDeclaration := u.isDeclaration
                     isModule := u.isModule } : UnitRecord).applyTags u.tags with
      imports := u.imports })
  let members ← (cx.facts.symbol root).exports.mapM r.member
  modify (fun s =>
    let shown := if cx.settings.sort then sortMembers s.toModel members else members
    { s with units := s.units.modify h.index (fun record => { record with members := shown }) })

/-- The record of the unit at a position, registered and then filled on the first request.  A unit
    that was begun before is given as it is. -/
def requestUnit (fill : SymbolId → UnitFacts → UnitHandle → Build PUnit) (position : Nat) :
    Build UnitHandle := do
  match (← get).units.find? position with
  | some h => return ⟨h⟩
  | none =>
    let u := (cx.facts.units[position]?).getD default
    match u.symbol with
    | none => throw (.noRoot u.name)
    | some root => nested do
      let h ← pushUnit position
      fill root u h
      complete (.unit h)
      return h

/-- **A unit request with a bound on its nesting.** -/
def unitWithin : (room : Nat) → (position : Nat) → Build UnitHandle
  | 0 => requestUnit cx (fun _ _ _ => throw .endless)
  | n + 1 => requestUnit cx (fillUnit cx (requestsWithin cx n))

/-- **The record of the unit at a position.** -/
def unitRecord (position : Nat) : Build UnitHandle := unitWithin cx cx.host.fillings position

/-- The position of the first unit with a name or path. -/
def positionNamed (name : String) : Except Fault Nat :=
  match cx.facts.findUnit? name with
  | some position => .ok position
  | none => .error (.noUnit name)

/-- The record of the first unit with a name or path. -/
def unitNamed (name : String) : Build UnitHandle := do
  unitRecord cx (← orFault (positionNamed cx name))

/-- A unit that is left out. -/
def warn (fault : Fault) : Build (List UnitHandle) := do
  modify (fun s => { s with warnings := s.warnings ++ [fault.message.getD ""] })
  return []

/-- A unit, or a warning where there is none, or it has neither a record nor a root. -/
def unitOrWarning : Except Fault Nat → Build (List UnitHandle)
  | .error fault => warn fault
  | .ok position => do
    let u := (cx.facts.units[position]?).getD default
    if (← get).units.contains position || u.symbol.isSome then return [← unitRecord cx position]
    else warn (.noRoot u.name)

/-- **All units**, those without a root left out with a warning. -/
def allUnits : Build (List UnitHandle) := do
  let found ← (List.range cx.facts.units.length).mapM (fun i => unitOrWarning cx (.ok i))
  return found.flatten

/-! ## 3. On first use -/

/-- **The record that an alias expands to**, with a bound on the nesting of its requests. -/
def expandWithin (room : Nat) (t : TypeRef) : Build (Option TypeHandle) := do
  let e ← newType
  fillUnaliased cx (requestsWithin cx room) t e
  complete (.type e)
  return some e

/-- **The expansion of an alias reference**, worked out once. -/
def expansion (h : TypeHandle) : Build (Option TypeHandle) := do
  let t ← type h
  match t.expanded, t.expansion with
  | some e, _ => return some e
  | none, none => return none
  | none, some source =>
    let e ← match source with
      | .record e => pure e
      | .ofType ref => expandWithin cx cx.host.fillings ref
    modifyType h (fun t => { t with expanded := e })
    return e

/-- **The branches of a conditional type**, resolved once. -/
def branches (h : TypeHandle) : Build (Option (Option TypeHandle × Option TypeHandle)) := do
  let t ← type h
  match t.resolved, t.branches with
  | some pair, _ => return some pair
  | none, none => return none
  | none, some source =>
    let pair ← match source with
      | .records yes no => pure (yes, no)
      | .ofType ref => do
        let facts := cx.facts.type ref
        let yes ← typeRecord cx (.orError facts.trueType)
        let no ← typeRecord cx (.orError facts.falseType)
        pure (some yes, some no)
    modifyType h (fun t => { t with resolved := some pair })
    return some pair

/-- **The type that a type alias stands for**: the expansion of its declared type. -/
def aliasedType (h : MemberHandle) : Build (Option TypeHandle) := do
  match (← member h).declaredType with
  | none => return none
  | some d =>
    let declared ← type d
    match declared.kind, declared.target with
    | .aliasRef, _ => expansion cx d
    | .genericInstantiation, some t =>
      if (← type t).kind = .aliasRef then expansion cx t else return some d
    | _, _ => return some d

/-- The member records of all properties of a type record. -/
def propertiesOf (h : TypeHandle) : Build (List MemberHandle) := do
  match (← type h).raw with
  | none => return []
  | some t => (← orFault (cx.propertiesOf (some t))).mapM (requests cx).member

/-! ## 4. Renderings -/

/-- Every symbol, every type, every unit, the missing symbol, the missing type and the error type. -/
def keyCount : Nat :=
  cx.facts.symbols.length + cx.facts.types.length + cx.facts.units.length + 3

/-- A rendering, tried again after resolving the branches it stopped at. -/
def settledWithin {α : Type} (render : Model → Rendering α) : (fuel : Nat) → Build α
  | 0 => throw .endless
  | n + 1 => do
    match render (← get).toModel with
    | .ok a => return a
    | .error (.fault f) => throw f
    | .error (.unresolved h) =>
      let _ ← branches cx h
      settledWithin render n

/-- **A rendering that resolves the branches it meets.**  Each try resolves one more record, and there
    are no more conditional records than records now and types still to come. -/
def settled {α : Type} (render : Model → Rendering α) : Build α := do
  settledWithin cx render ((← get).types.size + keyCount cx + 1)

end Build

/-- The checker's own text of a type record, or its shape where it stands for no type. -/
def Facts.recordText (f : Facts) (t : TypeExpr) : String :=
  match t.raw with
  | some ref => f.typeText ref
  | none => t.kind.word

end ApiReference
