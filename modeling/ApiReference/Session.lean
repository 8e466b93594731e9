/-
  Sessions.

  A session holds the facts of the current compilation and builds its model on demand.  The model is
  opened by the first step that needs it -- a configuration that cannot be read fails at every such
  step -- and dropped only when the compilation is replaced.

  1. `Session`, `Step`;
  2. `Session.step`     -- one step;
  3. `Session.runSteps` -- steps in order; one that ran out of call stack is the last.
-/
import ApiReference.Facts.Link
import ApiReference.Workspace

namespace ApiReference

/-! ## 1. Sessions and steps -/

/-- **The current compilation and its model.** -/
structure Session where
  facts : Facts
  config : Option Value := none
  host : Host := .plain
  workspace : Option Workspace := none
  /-- the unit records, once all were built -/
  units : Option (List UnitHandle) := none

/-- **One step of a session.** -/
inductive Step where
  | units
  | unit (name : String)
  | dumpUnits
  | request (r : Request)
  /-- the declaration that documents a function with the given ones, which are looked up before the
      model is opened -/
  | pick (declarations : List String)
  /-- a question about the facts alone -/
  | ask (question : Facts → Except Fault Value)
  /-- another compilation -/
  | replace (document : Value)

/-- What a session does: it changes, and gives a result or a fault. -/
abbrev SessionM := ExceptT Fault (StateM Session)

/-! ## 2. One step -/

namespace Session

/-- The workspace, opened on first use. -/
def opened : SessionM Workspace := do
  let s ← get
  match s.workspace with
  | some w => return w
  | none =>
    match Workspace.ofFacts s.facts s.config s.host with
    | .ok w =>
      set { s with workspace := some w }
      return w
    | .error f => throw f

/-- A build in the session's workspace. -/
def build {α : Type} (action : Workspace → Build α) : SessionM α := do
  let w ← opened
  let (result, w) := w.run (action w)
  modify (fun s => { s with workspace := some w })
  match result with
  | .ok a => return a
  | .error f => throw f

/-- A result, or the fault of the step. -/
def orFault {α : Type} : Except Fault α → SessionM α
  | .ok a => return a
  | .error f => throw f

/-- **All unit records**, built once. -/
def allUnits : SessionM (List UnitHandle) := do
  match (← get).units with
  | some us => return us
  | none =>
    let us ← build (fun w => Build.allUnits w.context)
    modify (fun s => { s with units := some us })
    return us

/-- The data of some units; the output settings are read for each. -/
def dumpOf (us : List UnitHandle) : SessionM (List Value) :=
  build fun w => us.mapM (fun u => do
    let output ← Build.orFault (Output.ofConfig w.config)
    Build.settled w.context (fun m => Dump.unit w.style m output (m.unit u)))

/-- **One step.** -/
def step : Step → SessionM Answer
  | .units => return .units (← allUnits)
  | .unit name => return .unit (← build (fun w => Build.unitNamed w.context name))
  | .dumpUnits => do return .value (.list (← dumpOf (← allUnits)))
  | .request r => build (fun w => w.answer r)
  | .pick ids => do
    let declarations ← orFault (ids.mapM (← get).facts.declaredDeclaration)
    let w ← opened
    return .text (← orFault (w.documenting declarations)).text
  | .ask question => do return .value (← orFault (question (← get).facts))
  | .replace document => do
    let facts ← orFault (Facts.link document)
    modify (fun s => { s with facts, workspace := none, units := none })
    return .value (.bool true)

/-! ## 3. Runs -/

/-- **Steps in order**, each with its outcome and the session after it.  A fault lets the next step
    run, except that nothing follows a step that ran out of call stack. -/
def runSteps (s : Session) : List Step → List (Except Fault Answer × Session)
  | [] => []
  | x :: xs =>
    let (result, s) := (step x).run s
    match result with
    | .error .endless => [(result, s)]
    | _ => (result, s) :: runSteps s xs

end Session

/-- **A new session** over a fact document. -/
def Session.start (document : Value) (config : Option Value) (host : Host := .plain) :
    Except Fault Session := do
  return { facts := ← Facts.link document, config, host }

end ApiReference
