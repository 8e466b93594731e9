/-
  The members of a class, grouped for display.

  1. `sortMembers`       -- the order of a reference page: members with a sinking modifier come
                            later, otherwise source order; equal keys keep their order;
  2. `declaringAncestor` -- the container that first declared a member: the parent of the last record
                            on the chain of overridden members, cut before its first repetition;
  3. `ClassView`, `groupMembers` -- own and inherited members by kind, private ones left out.
-/
import ApiReference.Model.Basic
import ApiReference.Facts.Query

namespace ApiReference

/-! ## 1. Display order -/

/-- The modifiers that let a member sink, the strongest first. -/
def sinking : List Modifier := [.private_, .internal, .deprecated, .protected_, .optional]

/-- **The sort key of a member**: its sinking modifiers, whether it has no location, its offset. -/
def Member.sortKey (c : Member) : List Int :=
  sinking.map (fun x => if c.has x then 1 else 0) ++
    match c.location with
    | none => [1, 0]
    | some l => [0, l.start]

/-- Lexicographic order of keys. -/
def keyLe : List Int → List Int → Bool
  | [], _ => true
  | _ :: _, [] => false
  | a :: r, b :: t => a < b || (a == b && keyLe r t)

/-- **Members in display order**; equal keys keep their order. -/
def sortMembers (m : Model) (cs : List MemberHandle) : List MemberHandle :=
  cs.mergeSort (fun a b => keyLe (m.member a).sortKey (m.member b).sortKey)

/-! ## 2. Declaring ancestors -/

/-- The members along the chain of overridden members, from the member itself. -/
def overrideChain (m : Model) (h : MemberHandle) : List MemberHandle :=
  chain (fun c => (m.member c).overrides) (m.members.size + 1) [] h

/-- **The container that first declared a member.** -/
def declaringAncestor (m : Model) (h : MemberHandle) : Option MemberHandle :=
  (m.member ((overrideChain m h).getLast?.getD h)).parent

/-! ## 3. Grouping -/

/-- Members filed under the ancestor that declared them. -/
abbrev Groups := List (MemberHandle × List MemberHandle)

/-- One more member under an ancestor; new ancestors come last. -/
def Groups.add (ancestor child : MemberHandle) : Groups → Groups
  | [] => [(ancestor, [child])]
  | (a, cs) :: r => if a = ancestor then (a, cs ++ [child]) :: r else (a, cs) :: Groups.add ancestor child r

/-- **The members of a class or interface, grouped for display.** -/
structure ClassView where
  constructor? : Option MemberHandle := none
  properties : List MemberHandle := []
  events : List MemberHandle := []
  methods : List MemberHandle := []
  inheritedProperties : Groups := []
  inheritedEvents : Groups := []
  inheritedMethods : Groups := []
deriving Repr, Inhabited

namespace ClassView

/-- A member inherited from an ancestor. -/
def addInherited (v : ClassView) (kind : MemberKind) (ancestor child : MemberHandle) : ClassView :=
  if kind.isMethod then { v with inheritedMethods := v.inheritedMethods.add ancestor child }
  else if kind.isProperty then { v with inheritedProperties := v.inheritedProperties.add ancestor child }
  else if kind = .event then { v with inheritedEvents := v.inheritedEvents.add ancestor child }
  else v

/-- A member of the class itself. -/
def addOwn (v : ClassView) (kind : MemberKind) (child : MemberHandle) : ClassView :=
  if kind.isMethod then { v with methods := v.methods ++ [child] }
  else if kind.isProperty || kind = .indexSignature then { v with properties := v.properties ++ [child] }
  else if kind = .event then { v with events := v.events ++ [child] }
  else v

/-- The ancestor that a child of `owner` is filed under, when it is inherited. -/
def inheritedFrom? (m : Model) (owner child : MemberHandle) : Option MemberHandle :=
  match declaringAncestor m child with
  | some a => if a ≠ owner && (m.member a).kind.isInheriting then some a else none
  | none => none

/-- **One child of a class.** -/
def add (m : Model) (owner : MemberHandle) (v : ClassView) (child : MemberHandle) : ClassView :=
  let c := m.member child
  if c.kind = .constructor then { v with constructor? := some child }
  else if c.has .private_ then v
  else match inheritedFrom? m owner child with
    | some a => v.addInherited c.kind a child
    | none => v.addOwn c.kind child

end ClassView

/-- **The members of a class, grouped.**  A missing member is a fault. -/
def groupMembers (m : Model) (owner : MemberHandle) : Except Fault ClassView :=
  ((m.member owner).members.getD []).foldlM
    (fun v child => do return v.add m owner (← present child)) {}

end ApiReference
