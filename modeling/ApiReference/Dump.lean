/-
  The model as plain data.

  A unit becomes a map of its fields and members, a member a map of its fields and everything nested
  in it.  Containers can reach themselves, so the records that enclose a place are carried along, and
  a record met inside itself becomes a bare reference.  The enclosing records are different from each
  other, so the nesting never exceeds the number of members, which is the fuel.

  1. `Output`          -- which members are shown;
  2. parameters and types;
  3. `dumpMember`, `dumpUnit`.
-/
import ApiReference.Render.Walk

namespace ApiReference

/-! ## 1. What is shown -/

/-- **Which members are dumped.** -/
structure Output where
  includePrivate : Bool := false
  includeIgnored : Bool := false
deriving DecidableEq, Repr, Inhabited

/-- Is the member shown? -/
def Output.shows (o : Output) (c : Member) : Bool :=
  (!c.ignored || o.includeIgnored) && (o.includePrivate || !c.has .private_)

/-- The output settings of a configuration. -/
def Output.ofConfig (config : Value) : Except Fault Output := do
  let output ← config.getD "output" (.map [])
  let includePrivate ← output.getD "include_private" (.bool false)
  let includeIgnored ← output.getD "include_ignored" (.bool false)
  return { includePrivate := includePrivate.isTrue, includeIgnored := includeIgnored.isTrue }

namespace Dump

/-- The entries of a map under construction. -/
abbrev Entries := List (String × Value)

/-- An entry for a field that is set. -/
def setField (key : String) : Option Value → Entries
  | some v => [(key, v)]
  | none => []

/-- An entry for a mark that is on. -/
def markField (key : String) (b : Bool) : Entries := if b then [(key, .bool true)] else []

/-- A text field. -/
def textField (key : String) (s : Option String) : Entries := setField key (s.map .str)

/-- A list of texts. -/
def texts (ss : List String) : Value := .list (ss.map .str)

/-- Named texts as a map. -/
def namedTexts (ts : NamedTexts) : Value := .map (ts.map (fun (n, t) => (n, .str t)))

/-- The documentation fields that are set, in their order. -/
def docs (d : Docs) : Entries :=
  textField "summary" d.summary ++ textField "description" d.description
  ++ setField "examples" (d.examples.map texts) ++ setField "see_also" (d.seeAlso.map texts)
  ++ textField "since" d.since ++ textField "category" d.category
  ++ textField "deprecated_message" d.deprecatedMessage ++ setField "default_value" d.defaultValue
  ++ setField "unknown_tags" (d.unknownTags.map namedTexts)
  ++ setField "return_summary" d.returnSummary

/-! ## 2. Parameters and types -/

variable (s : Style) (m : Model)

/-- A type field, as text. -/
def typeField (key : String) (t : Option TypeHandle) : Rendering Entries :=
  match t with
  | none => return []
  | some h => return [(key, .str (← s.text m (some h)))]

/-- A field with several types, left out when it is empty. -/
def typesField (key : String) (ts : Option (List (Option TypeHandle))) : Rendering Entries :=
  match ts.getD [] with
  | [] => return []
  | ts => do
    let texts ← ts.mapM (s.text m)
    return [(key, .list (texts.map .str))]

/-- The fields of a parameter that describe it as a whole. -/
def parameterFields (p : Parameter) : Rendering Entries := do
  let type ← typeField s m "type" p.type
  let summary := match p.summary with
    | some "" => []
    | t => textField "summary" t
  return ("name", p.name) :: (type ++ summary ++ markField "rest" p.rest
    ++ markField "optional" p.optional ++ setField "default_value" p.defaultValue)

mutual

/-- **A parameter and its parts.** -/
def parameter : Parameter → Rendering Value
  | ⟨name, type, summary, rest, optional, default, subs, raw⟩ => do
    let fields ← parameterFields s m ⟨name, type, summary, rest, optional, default, subs, raw⟩
    match subs with
    | none => return .map fields
    | some [] => return .map fields
    | some (p :: ps) =>
      let first ← parameter p
      let others ← parameterList ps
      return .map (fields ++ [("sub_parameters", .list (first :: others))])

/-- Parameters in order. -/
def parameterList : List Parameter → Rendering (List Value)
  | [] => return []
  | p :: ps => do
    let first ← parameter p
    let others ← parameterList ps
    return first :: others

end

/-- The types of a member. -/
def memberTypes (c : Member) : Rendering Entries := do
  let type ← typeField s m "type" c.type
  let returnType ← typeField s m "return_type" c.returnType
  let declaredType ← typeField s m "declared_type" c.declaredType
  let extended ← typesField s m "extends" c.extends_
  let implemented ← typesField s m "implements" c.implements
  let generics := match c.typeParameters.getD [] with
    | [] => []
    | ps => [("type_parameters", texts (ps.map TypeParameter.name))]
  return type ++ returnType ++ declaredType ++ extended ++ implemented ++ generics

/-- Where a member stands. -/
def location (l : SourceLocation) : Value :=
  .map [("path", .str l.path), ("line", .int l.line), ("endLine", .int l.endLine)]

/-- What every member has, a bare reference too. -/
def identity (c : Member) : Entries :=
  [("kind", .str c.kind.word), ("name", c.name), ("id", .str c.id)]

/-- The fields of a member that hold no other member. -/
def ownFields (c : Member) : Rendering Entries := do
  let modifiers := match c.modifiers.names with
    | [] => []
    | ns => [("modifiers", texts ns)]
  let overrides := textField "overrides" (c.overrides.map (fun h => (m.member h).id))
  let inherited := textField "inheritedFrom" (c.base.map (fun h => (m.member h).id))
  let types ← memberTypes s m c
  let parameters ← match c.parameters with
    | none => pure []
    | some ps => do pure [("parameters", Value.list (← parameterList s m ps))]
  return modifiers ++ docs c.docs ++ setField "location" (c.location.map location)
    ++ overrides ++ inherited ++ types ++ parameters

/-! ## 3. Members and units -/

/-- How to dump a nested member. -/
abbrev Nested := MemberHandle → Rendering Value

/-- Members that are dumped whatever their marks. -/
def allMembers (nested : Nested) (cs : List (Option MemberHandle)) : Rendering (List Value) :=
  cs.mapM (fun c => match c with
    | some h => nested h
    | none => throw (.fault .noField))

/-- The members that are shown. -/
def shownMembers (o : Output) (nested : Nested) : List (Option MemberHandle) → Rendering (List Value)
  | [] => return []
  | none :: _ => throw (.fault .noField)
  | some h :: cs => do
    if o.shows (m.member h) then
      let first ← nested h
      let others ← shownMembers o nested cs
      return first :: others
    else shownMembers o nested cs

/-- The fields of a member that hold other members: overloads, merged records, children. -/
def nestedFields (o : Output) (nested : Nested) (c : Member) : Rendering Entries := do
  let overloads ← match c.overloads.getD [] with
    | [] => pure []
    | cs => do pure [("overloads", Value.list (← allMembers nested cs))]
  let merged ← match c.classOrInterface with
    | none => pure []
    | some h => do pure [("class_or_interface", ← nested h)]
  let spaces ← match c.namespace_ with
    | none => pure []
    | some h => do pure [("namespace", ← nested h)]
  let children ← match c.members with
    | none => pure []
    | some cs => do pure [("members", Value.list (← shownMembers m o nested cs))]
  return overloads ++ merged ++ spaces ++ children

/-- **One member inside the records of `path`.** -/
def memberWithin (o : Output) : (fuel : Nat) → (path : List MemberHandle) → Nested
  | 0, _, _ => throw (.fault .endless)
  | n + 1, path, h => do
    let c := m.member h
    if h ∈ path then return .map (identity c ++ [("ref", .bool true)])
    else
      let own ← ownFields s m c
      let nested ← nestedFields m o (memberWithin o n (h :: path)) c
      return .map (identity c ++ own ++ nested)

/-- Fuel for any nesting of different members. -/
def fuel : Nat := m.members.size + 2

/-- **The data of one member** and everything nested in it. -/
def member (o : Output) (h : MemberHandle) : Rendering Value := memberWithin s m o (fuel m) [] h

/-- One import. -/
def importData (i : Import) : Value := .map [("name", .str i.name), ("resolved", i.resolved)]

/-- **The data of one unit.** -/
def unit (o : Output) (u : UnitRecord) : Rendering Value := do
  let imports := match u.imports with
    | [] => []
    | is => [("imports", Value.list (is.map importData))]
  let members ← shownMembers m o (member s m o) (u.members.map some)
  return .map ([("name", .str u.name), ("path", .str u.path)]
    ++ markField "declaration" u.isDeclaration ++ markField "module" u.isModule
    ++ textField "summary" u.summary ++ textField "author" u.author
    ++ textField "copyright" u.copyright ++ textField "license" u.license
    ++ textField "version" u.version ++ imports ++ [("members", .list members)])

end Dump

end ApiReference
