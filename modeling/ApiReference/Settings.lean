/-
  Settings.

  A configuration is a map with the parts `serializer`, `members` and `output`; what a user gives is
  merged over the defaults.

  1. `defaultConfig`, `loadConfig`;
  2. `Limits.ofConfig`     -- how much of a long type is shown;
  3. `Settings.ofConfig`   -- what the build needs: the event pattern and whether to sort.
-/
import ApiReference.Data.Merge
import ApiReference.Host
import ApiReference.Render.Token

namespace ApiReference

/-! ## 1. Configurations -/

/-- **The default configuration.** -/
def defaultConfig : Value :=
  .map [
    ("serializer", .map [
      ("max_list_items", .int 10),
      ("head_items", .int 3),
      ("tail_items", .int 2),
      ("collapse_function_nodes", .int 20)]),
    ("members", .map [
      ("event_pattern", .str "^on[^a-z0-9]"),
      ("sort", .bool true)]),
    ("output", .map [
      ("include_private", .bool false),
      ("include_ignored", .bool false)])]

/-- **The defaults with a user's configuration over them**; one that does not count as set changes
    nothing. -/
def loadConfig (user : Option Value) : Except Fault Value :=
  match user with
  | none => .ok defaultConfig
  | some u => Value.merge defaultConfig (if u.isTrue then u else .map [])

/-! ## 2. Limits -/

/-- The limits of the `serializer` part; one that does not count as set leaves the defaults. -/
def Limits.ofConfig (config : Value) : Except Fault Limits := do
  let config := if config.isTrue then config else .map []
  let maxItems ← (← config.getD "max_list_items" (.int 10)).toInt
  let headItems ← (← config.getD "head_items" (.int 3)).toInt
  let tailItems ← (← config.getD "tail_items" (.int 2)).toInt
  let collapseNodes ← (← config.getD "collapse_function_nodes" (.int 20)).toInt
  return { maxItems, headItems, tailItems, collapseNodes }

/-! ## 3. Build settings -/

/-- **What the build and the rendering need to know.** -/
structure Settings where
  /-- does a property's name have the form of an event? -/
  eventPattern : String → Bool
  sort : Bool
  limits : Limits
deriving Inhabited

/-- The search of the event pattern that a value holds. -/
def readEventPattern (host : Host) : Value → Except Fault (String → Bool)
  | .str s => match host.pattern? s with
    | some search => .ok search
    | none => .error .badPattern
  | _ => .error .notText

/-- **The settings of a configuration**, read part by part. -/
def Settings.ofConfig (host : Host) (config : Value) : Except Fault Settings := do
  let members ← config.index "members"
  let pattern ← readEventPattern host (← members.index "event_pattern")
  let sort ← members.index "sort"
  let limits ← Limits.ofConfig (← config.index "serializer")
  return { eventPattern := pattern, sort := sort.isTrue, limits }

end ApiReference
