import ContractAudit.Audit.Log
import ContractAudit.Command.Arguments
import ContractAudit.Discovery
import ContractAudit.Impact.Json
import ContractAudit.Impact.Text
import ContractAudit.Log.Filter
import ContractAudit.Report.Json
import ContractAudit.Report.Text

/-!
# Running the command

The map is the given file, or the one map in the given directory or in the working directory. It is
audited against the files below the project root, or asked for the impact of one node. What is
written, the exit code and the log are one value, computed from the file tree.
-/

namespace ContractAudit.Command

/-- What the command comes to. -/
structure Outcome where
  output : String := ""
  failure : Option LoadError := none
  exitCode : Nat
  events : List Log.Event
  deriving DecidableEq, Repr

def failureLine (e : LoadError) : String := "contractmap verify failed: " ++ e.message

def versionLine : String := "contractmap 0.1.0"

/-- What is printed for a rendered result: a line end is added unless there is nothing to print. -/
def printed (rendered : String) : String := if rendered.isEmpty then "" else rendered ++ "\n"

namespace Options

def outputFormat (o : Options) : Format := o.format.getD .text

/-- Whether words are set off by colour: only in text, on a terminal, if nothing forbids it. -/
def style (o : Options) (colourForbidden terminal : Bool) : Style :=
  if o.outputFormat = .text && !o.noColour && !colourForbidden && terminal then .coloured else .plain

/-- Where the map is. -/
def locate (o : Options) (fs : FileSystem) : Except LoadError FilePath :=
  match o.file with
  | some path => if fs.isDirectory path then fs.discover path else .ok path
  | none => fs.discover fs.workingDirectory

def locateEvents (o : Options) (fs : FileSystem) : List Log.Event :=
  match o.file with
  | some path => if fs.isDirectory path then fs.discoveryEvents path else []
  | none => fs.discoveryEvents fs.workingDirectory

def projectRoot (o : Options) (path : FilePath) : FilePath := o.root.getD path.directory

def renderImpact (o : Options) (style : Style) (answer : ImpactOutcome) : String :=
  match o.outputFormat with
  | .json => answer.jsonText
  | .text => if o.quiet && answer.exitCode = 0 then "" else Text.trimEnd (answer.text style)

def renderReport (o : Options) (style : Style) (report : Report) : String :=
  match o.outputFormat with
  | .json => report.jsonText
  | .text => if o.quiet then report.summaryLine else Text.trimEnd (report.text style)

def startEvent (path root : FilePath) : Log.Event where
  level := .info
  origin := .command
  message := "verifying contract map"
  fields := [("document", .text path.text), ("root", .text root.text)]

def audit (o : Options) (fs : FileSystem) (path : FilePath) (d : Document) : Audit :=
  ⟨fs.sources, d, o.projectRoot path⟩

/-- What the command comes to for a map that could be loaded. -/
def runOn (o : Options) (style : Style) (fs : FileSystem) (path : FilePath) (d : Document)
    (events : List Log.Event) : Outcome :=
  match o.impact with
  | some id =>
    let answer := d.impact id
    { output := printed (o.renderImpact style answer)
      exitCode := answer.exitCode
      events := events ++ [answer.event] }
  | none =>
    let audit := o.audit fs path d
    let report := audit.report
    { output := printed (o.renderReport style report)
      exitCode := report.exitCode
      events := events ++ startEvent path audit.root :: audit.events }

/-- What the command comes to. -/
def run (o : Options) (style : Style) (fs : FileSystem) : Outcome :=
  let events := o.locateEvents fs
  match o.locate fs with
  | .error e => { failure := some e, exitCode := 1, events }
  | .ok path =>
    match fs.load path with
    | .error e => { failure := some e, exitCode := 1, events }
    | .ok d => o.runOn style fs path d (events ++ [d.loadEvent path])

/-- The paths the command looks at, as far as the tree tells. -/
def paths (o : Options) (fs : FileSystem) : List FilePath :=
  o.file.getD fs.workingDirectory ::
    match o.locate fs with
    | .error _ => []
    | .ok path =>
      path :: match o.impact, fs.load path with
        | none, .ok d =>
          let audit := o.audit fs path d
          (d.nodes.values.filterMap NodeRecord.loc).map fun loc => (audit.resolve loc).path
        | _, _ => []

end Options

/-! ## Settings of the environment -/

/-- What the command takes from its environment. -/
structure Environment where
  logFilter : Option String := none
  logJson : Option String := none

def truthOfString (s : String) : Option Bool :=
  let word := Text.trim s
  if ["1", "true", "TRUE", "yes", "YES", "on", "ON"].contains word then some true
  else if ["0", "false", "FALSE", "no", "NO", "off", "OFF"].contains word then some false
  else none

namespace Environment

/-- Whether the log is written as JSON. -/
def logsJson (env : Environment) (o : Options) : Bool :=
  o.logJson || ((env.logJson.bind truthOfString).getD false)

def logged (env : Environment) (events : List Log.Event) : List Log.Event :=
  let filter := Log.Filter.ofEnvironment env.logFilter
  events.filter filter.admits

end Environment

/-! ## What is written beside the result -/

def jsonLine (e : Log.Event) : String :=
  match e.toJson Log.FieldValue.toJson with
  | .object fields => (Json.object (fields ++ [("target", Json.string e.origin.target)])).compact
  | other => other.compact

def textLine (e : Log.Event) : String :=
  e.level.text ++ " " ++ e.origin.target ++ ": " ++
    Text.joinWith " " (e.message :: e.fields.map fun (name, v) => name ++ "=" ++ v.shown)

/-- The lines that are written beside the result: the log, and last why there is no result. -/
def Environment.errorLines (env : Environment) (o : Options) (outcome : Outcome) : List String :=
  let line := if env.logsJson o then jsonLine else textLine
  (env.logged outcome.events).map line ++ outcome.failure.toList.map failureLine

end ContractAudit.Command
