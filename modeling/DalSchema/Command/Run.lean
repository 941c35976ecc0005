import DalSchema.Command.Invocation
import DalSchema.Compile.Outcome
import DalSchema.Config
import DalSchema.Diagnostic.Snippet
import DalSchema.Log.Console
import DalSchema.Settings.Basic

/-!
# Running the command

A run reads the command line, the settings and the schema file, and then checks or compiles the
schema. It ends with a status: zero if all went well, one if the schema could not be read, two if
the command line made no sense. A failure that the command does not answer itself ends it without a
status.

Output is written only after a schema has been compiled, so a run that ends otherwise leaves nothing
but log lines and messages.
-/

namespace DalSchema.Command

open Log

inductive Ending where
  | status (code : Nat)
  | failed (failure : Failure)
  deriving Repr, DecidableEq, Inhabited

structure Report where
  ending : Ending
  stdout : String := ""
  stderr : String := ""
  workspace : Workspace

/-- What a run has left so far. -/
structure Progress where
  workspace : Workspace
  console : Console := {}
  stderr : String := ""

namespace Progress

def print (p : Progress) (text : String) : Progress := { p with stderr := p.stderr ++ text }

def log (p : Progress) (r : Record) : Progress :=
  let (text, workspace) := p.console.log p.workspace r
  { p with workspace, stderr := p.stderr ++ text }

def logAll (p : Progress) (records : List Record) : Progress := records.foldl log p

def finish (p : Progress) (ending : Ending) (stdout : String := "") : Report :=
  { ending, stdout, stderr := p.stderr, workspace := p.workspace }

def complain (p : Progress) (message : String) : Report :=
  (p.print ("error: " ++ message)).finish (.status 1)

end Progress

def failureText (o : Outcome) (source : List Char) : String :=
  (o.error.map Response.message).getD "compilation failed" ++ "\n" ++
    if o.diagnostics.isEmpty then ""
    else Diagnostic.renderAll o.diagnostics source o.fileName ++ "\n"

def summaryRecord (o : Outcome) : Record := ⟨.info, commandLogger, o.summary⟩

/-- The format that a run is to use: the one of the command line, or else of the configuration. -/
def selectorOf (config : Value) (i : Invocation) : Except Failure String := do
  match i.format with
  | some format => return format
  | none => do
    let output ← Config.contentOf config "output"
    return (← Config.get output "default_format" (.text "postgres")).plain

/-- The options that a run is to use: those of the command line, and those of the configuration.
Where the command line says enough, the configuration is not looked into. -/
def optionsOf (config : Value) (i : Invocation) : Except Failure RustOptions := do
  let rust ← Config.contentOf config "rust"
  let isOn (asked : Bool) (key : String) : Except Failure Bool :=
    if asked then .ok true else do return (← Config.get rust key (.flag false)).isSet
  return ⟨← isOn i.serde "serde", ← isOn i.juniper "juniper", ← isOn i.sqlite "sqlite"⟩

def selection (w : Workspace) (i : Invocation) : Except Failure (String × RustOptions) := do
  let config ← Config.load w
  return (← selectorOf config i, ← optionsOf config i)

def runCheck (p : Progress) (source : List Char) (fileName : String) : Report :=
  let checked := checkSource p.workspace.surroundings source fileName
  let p := p.logAll checked.records
  if checked.value.success then (p.log (summaryRecord checked.value)).finish (.status 0)
  else p.complain (failureText checked.value source)

def deliverOutput (p : Progress) (i : Invocation) (o : Outcome) : Report :=
  let text := o.output.getD ""
  match i.output.filter fun path => !path.isEmpty with
  | none => (p.log (summaryRecord o)).finish (.status 0) text
  | some path =>
    match p.workspace.writeText path text with
    | .error f => p.finish (.failed f)
    | .ok workspace => (({ p with workspace }).log (summaryRecord o)).finish (.status 0)

def runCompile (p : Progress) (i : Invocation) (source : List Char) (fileName : String) : Report :=
  match selection p.workspace i with
  | .error (.configuration .malformed) => p.complain "cannot load configuration: <yaml error>"
  | .error (.missingConfiguration path) =>
    p.complain ("cannot load configuration: " ++
      ((Failure.missingConfiguration path).message?.getD "") ++ "\n")
  | .error f => p.finish (.failed f)
  | .ok (selector, options) =>
    match compileSource p.workspace.surroundings source selector fileName options with
    | .error (.invalidFormat name) => p.complain ((Problem.invalidFormat name).message ++ "\n")
    | .error (.unknownType type) => p.finish (.failed (.unknownType type))
    | .ok compiled =>
      let p := p.logAll compiled.records
      if compiled.value.success then deliverOutput p i compiled.value
      else p.complain (failureText compiled.value source)

def runOn (p : Progress) (i : Invocation) (path : Path) : Report :=
  match p.workspace.readText path with
  | .error (.system e name) =>
    p.complain ("cannot read " ++ path.text ++ ": " ++
      ((Failure.system e name).message?.getD "") ++ "\n")
  | .error f => p.finish (.failed f)
  | .ok source =>
    if i.check then runCheck p source path.text else runCompile p i source path.text

def runInvocation (p : Progress) (i : Invocation) : Report :=
  match i.input with
  | some input => runOn p i (.ofText input)
  | none => p.finish (.failed .noPath)

def loggingSetup (i : Invocation) (s : Settings) : Setup where
  level := (i.logLevel.filter fun level => !level.isEmpty).getD s.logLevel
  layout := s.logFormat
  toFile := s.logToFile
  file := s.logFile

def runConfigured (w : Workspace) (i : Invocation) : Report :=
  let settings := Settings.load w
  let p := ({ workspace := w } : Progress).logAll settings.records
  match settings.value with
  | .error f => p.finish (.failed f)
  | .ok s =>
    let ready := p.console.setup p.workspace (loggingSetup i s)
    let p : Progress := ⟨ready.workspace, ready.console, p.stderr ++ ready.stderr⟩
    match ready.failure with
    | some f => p.finish (.failed f)
    | none => runInvocation p i

def run (w : Workspace) (arguments : List String) : Report :=
  match Invocation.ofWords arguments with
  | .error .help => { ending := .status 0, stdout := helpText, workspace := w }
  | .error (.refused message) =>
    { ending := .status 2
      stderr := usage ++ programName ++ ": error: " ++ message ++ "\n"
      workspace := w }
  | .ok i => runConfigured w i

end DalSchema.Command
