/-
  The command line: documenting a fact file.

  1. `Arguments.parse`  -- two paths, and the options `--unit`, `--config`, `--verbose`, which may be
                           shortened as long as they stay distinct;
  2. `extract`          -- the run, as a function of the file system: what it prints, what it logs,
                           and the file system after it.
-/
import ApiReference.FactFile
import ApiReference.FileTree
import ApiReference.Session

namespace ApiReference

/-! ## 1. Arguments -/

/-- **What the command line asks for.**  A value that is a bare double dash is left out. -/
structure Arguments where
  facts : String
  out : Option String
  units : List (Option String) := []
  config : Option String := none
  verbose : Bool := false
deriving Repr, Inhabited, DecidableEq

/-- The options. -/
inductive CliOption where
  | unit
  | config
  | verbose
  | help
deriving Repr, Inhabited, DecidableEq

/-- The long names of the options. -/
def CliOption.names : List (String × CliOption) :=
  [("--help", .help), ("--unit", .unit), ("--config", .config), ("--verbose", .verbose)]

/-- **One word of the command line.** -/
inductive Word where
  | positional (s : String)
  | option (o : CliOption) (value : Option String)
  | unknown
deriving Repr, Inhabited, DecidableEq

/-- A decimal digit of any script. -/
def isDigit (c : Char) : Bool := (Text.digitValue? c).isSome

/-- The characters without a line feed at their end. -/
def dropFinalNewline (cs : List Char) : List Char :=
  if cs.getLast? = some '\n' then cs.dropLast else cs

/-- Is the word a negative number?  A line feed may follow it. -/
def isNegativeNumber (cs : List Char) : Bool :=
  match dropFinalNewline cs with
  | '-' :: r =>
    match r.dropWhile isDigit with
    | [] => !r.isEmpty
    | '.' :: fraction => !fraction.isEmpty && fraction.all isDigit
    | _ => false
  | _ => false

/-- A word that names an option, in full or shortened, with the value after its equals sign. -/
def namedOption (s : String) : Option Word :=
  let (name, after) := Text.breakAt (· == '=') s.toList
  let value := if s.toList.contains '=' then some (String.ofList after) else none
  match CliOption.names.lookup (String.ofList name) with
  | some o => some (.option o value)
  | none =>
    match CliOption.names.filter (fun n => name.isPrefixOf n.1.toList) with
    | [(_, o)] => some (.option o value)
    | [] => none
    | _ => some .unknown

/-- **What a word is.**  A word that begins with a dash is an option, unless it is a dash alone, a
    negative number, or has a space. -/
def classify (s : String) : Word :=
  match s.toList with
  | '-' :: '-' :: _ :: _ => match namedOption s with
    | some w => w
    | none => if s.toList.contains ' ' then .positional s else .unknown
  | '-' :: c :: r =>
    if c = 'h' then .option .help none
    else if isNegativeNumber ('-' :: c :: r) || s.toList.contains ' ' then .positional s
    else .unknown
  | _ => .positional s

/-- **What has been read so far.** -/
structure ParseState where
  positionals : List (Option String) := []
  /-- has a positional word been read since the last option? -/
  fresh : Bool := false
  units : List (Option String) := []
  config : Option String := none
  verbose : Bool := false

/-- The double dash that ends the options. -/
def doubleDash : String := "--"

/-- The value that a word gives: a double dash gives none. -/
def wordValue (s : String) : Option String := if s = doubleDash then none else some s

/-- An option with its value. -/
def ParseState.setOption (st : ParseState) (value : String) : CliOption → Except Fault ParseState
  | .unit => .ok { st with fresh := false, units := st.units ++ [wordValue value] }
  | .config => .ok { st with fresh := false, config := wordValue value }
  | _ => .error .usage

/-- The words after the double dash, all positional.  The double dash belongs to the positional words
    it stands next to: after a fresh one each later word is a value of its own, otherwise the next
    word is taken as it is.  Where all positional words came before the last option, nothing is left
    for it to belong to. -/
def ParseState.finish (st : ParseState) (words : List String) : Except Fault ParseState :=
  if st.fresh then .ok { st with positionals := st.positionals ++ words.map wordValue }
  else if 2 ≤ st.positionals.length then .error .usage
  else match words with
    | [] => .ok st
    | w :: ws => .ok { st with positionals := st.positionals ++ some w :: ws.map wordValue }

/-- The words in order. -/
def readWords (st : ParseState) : List String → Except Fault ParseState
  | [] => .ok st
  | "--" :: rest => st.finish rest
  | s :: rest =>
    match classify s with
    | .positional p =>
      readWords { st with positionals := st.positionals ++ [some p], fresh := true } rest
    | .unknown => .error .usage
    | .option .help _ => .error .usage
    | .option .verbose none => readWords { st with verbose := true, fresh := false } rest
    | .option .verbose (some _) => .error .usage
    | .option o (some value) => do readWords (← st.setOption value o) rest
    | .option o none =>
      match rest with
      | [] => .error .usage
      | "--" :: _ => .error .usage
      | v :: rest => match classify v with
        | .positional value => do readWords (← st.setOption value o) rest
        | _ => .error .usage

/-- **Reading the command line.** -/
def Arguments.parse (words : List String) : Except Fault Arguments := do
  let st ← readWords {} words
  match st.positionals with
  | [some facts, out] =>
    .ok { facts, out, units := st.units, config := st.config, verbose := st.verbose }
  | _ => .error .usage

/-! ## 2. Extraction -/

/-- **What a run leaves behind**: the line it prints or its fault, its log, and the file system. -/
structure Run where
  outcome : Except Fault String
  log : List String := []
  files : FileTree

/-- A result of the file system. -/
def orFileFault {α : Type} : Except FileFault α → Except Fault α
  | .ok a => .ok a
  | .error e => .error (.file e)

/-- The configuration that the command line names; a missing file leaves the defaults. -/
def Arguments.loadConfig (a : Arguments) (files : FileTree) : Except Fault Value := do
  match a.config with
  | none => ApiReference.loadConfig none
  | some "" => ApiReference.loadConfig none
  | some path =>
    match ← orFileFault (files.read (.ofText path)) with
    | none => ApiReference.loadConfig none
    | some content => ApiReference.loadConfig (some (← readDocument (fileText content)))

/-- The record of a unit asked for, or a warning; a value that was left out names none. -/
def unitAsked (cx : Context) : Option String → Build (List UnitHandle)
  | some name => Build.unitOrWarning cx (Build.positionNamed cx name)
  | none => throw .noField

/-- The units asked for by name, or all of them. -/
def Arguments.documented (a : Arguments) : SessionM (List UnitHandle) :=
  match a.units with
  | [] => Session.allUnits
  | names => Session.build fun w => do
    let found ← names.mapM (unitAsked w.context)
    return found.flatten

/-- The data of the documented units, their number and the number of members. -/
def Arguments.document (a : Arguments) : SessionM (Value × Nat × Nat) := do
  let _ ← Session.opened
  let us ← a.documented
  let _ ← Session.build (fun w => Build.orFault (Output.ofConfig w.config))
  let units ← Session.dumpOf us
  let w ← Session.opened
  let warnings := match w.store.warnings with
    | [] => []
    | ws => [("warnings", Dump.texts ws)]
  return (.map (("units", .list units) :: warnings), us.length, w.store.members.size)

/-- A logged warning; units asked for by name are reported by the run, others by the model. -/
def Arguments.logLine (a : Arguments) (warning : String) : String :=
  let source := if a.units.isEmpty then "docmodel.doc_parser" else "docmodel.run_extraction"
  "WARNING " ++ source ++ ": Skipping unit: " ++ warning

/-- The session of a run. -/
def Arguments.session (a : Arguments) (files : FileTree) (host : Host) : Except Fault Session := do
  let path := Path.ofText a.facts
  match ← orFileFault (files.find? path) with
  | some (.file content) =>
    let config ← a.loadConfig files
    let document ← loadFacts path.text content
    Session.start document (some config) host
  | _ => .error (.noFactFile path.text)

/-- The data written to its file, and the line that reports it. -/
def Arguments.report (a : Arguments) (files : FileTree) (data : Value) (units members : Nat) :
    Except Fault (String × FileTree) := do
  match a.out with
  | none => .error .noOutput
  | some out =>
    let path := Path.ofText out
    let files ← orFileFault (files.save path (Json.write data ++ "\n"))
    return ("Documented " ++ toString units ++ " units (" ++ toString members ++ " members) into: "
      ++ path.text, files)

/-- **A run.** -/
def Arguments.extract (a : Arguments) (files : FileTree) (host : Host := .plain) : Run :=
  match a.session files host with
  | .error f => { outcome := .error f, files }
  | .ok s =>
    let (outcome, s) := a.document.run s
    let log := ((s.workspace.map (·.store.warnings)).getD []).map a.logLine
    match outcome with
    | .error f => { outcome := .error f, log, files }
    | .ok (data, units, members) =>
      match a.report files data units members with
      | .error f => { outcome := .error f, log, files }
      | .ok (line, files) => { outcome := .ok line, log, files }

/-- **The warnings of a log, line by line.**  A message may run over several lines, and a line is a
    warning when it begins with the level. -/
def Run.warnings (r : Run) : List String :=
  (r.log.flatMap (fun m => (Text.lines m.toList).map String.ofList)).filter
    (Text.startsWith · "WARNING ")

end ApiReference
