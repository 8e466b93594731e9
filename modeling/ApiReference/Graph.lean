/-
  Models built by hand.

  Records can be put together without any facts, for previews and for tools that edit a model.  Such
  a graph answers the same requests as a model, and its records can be copied over each other.
-/
import ApiReference.Workspace

namespace ApiReference

/-- **One step on a graph.** -/
inductive GraphStep where
  | request (r : Request)
  /-- only the rendered text -/
  | text (c : TypeChoice)
  | copyType (source target : TypeChoice)
  | copyMember (source target : MemberChoice)
  /-- the documentation that the target lacks -/
  | takeDocs (source target : MemberChoice)
  | sort (members : List MemberChoice)
deriving Inhabited

namespace Workspace

/-- **A graph of given records**, rendered within the limits of a configuration. -/
def ofRecords (members : List Member) (types : List TypeExpr) (rawText : TypeExpr → String)
    (config : Option Value) : Except Fault Workspace := do
  let config := (config.bind Value.toOption).getD (.map [])
  let limits ← Limits.ofConfig (← config.getD "serializer" .null)
  return {
    context := { Context.blank with settings := { Context.blank.settings with limits } }
    style := { limits, rawText }
    config
    store := { members := ⟨(members.map (fun c => (none, c))).toArray⟩
               types := ⟨(types.map (fun t => (none, t))).toArray⟩ } }

open Build in
/-- **The answer to a step on a graph.** -/
def graphStep (w : Workspace) : GraphStep → Build Answer
  | .request r => w.answer r
  | .text c => do
    let h ← chooseType w.context c
    return .text (← settled w.context (w.style.text · (some h)))
  | .copyType source target => do
    let record ← type (← chooseType w.context source)
    let t ← chooseType w.context target
    modifyType t (·.takeOver record)
    return .type t
  | .copyMember source target => do
    let record ← member (← chooseMember w.context source)
    let t ← chooseMember w.context target
    modifyMember t (fun _ => record)
    return .member t
  | .takeDocs source target => do
    let record ← member (← chooseMember w.context source)
    let t ← chooseMember w.context target
    modifyMember t (fun c => { c with docs := c.docs.backfill record.docs })
    return .member t
  | .sort members => do
    let hs ← members.mapM (chooseMember w.context)
    return .members (sortMembers (← get).toModel hs)

/-- **Steps in order**, each with its outcome and the graph after it. -/
def runGraph (w : Workspace) : List GraphStep → List (Except Fault Answer × Workspace)
  | [] => []
  | x :: xs =>
    let (result, w) := w.run (w.graphStep x)
    match result with
    | .error .endless => [(result, w)]
    | _ => (result, w) :: runGraph w xs

end Workspace

end ApiReference
