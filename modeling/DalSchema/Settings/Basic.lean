import DalSchema.Files.Workspace
import DalSchema.Log.Layout
import DalSchema.Settings.EnvFile
import DalSchema.Text.Lowercase

/-!
# Settings

The settings say how a run is logged. They come from the environment or else from a variable file in
the working directory; the letter case of the names does not matter.
-/

namespace DalSchema

structure Settings where
  logLevel : String := "ERROR"
  logFormat : Log.Layout := .simple
  logToFile : Bool := false
  logFile : Option String := none
  deriving Repr, DecidableEq, Inhabited

namespace Settings

def variableLead : String := "dalgen_"

def variableFile : String := ".env"

/-- The value that is bound last to a name, in any letter case. -/
def lastBound {α : Type} (name : String) (bindings : List (String × α)) : Option α :=
  (bindings.reverse.find? fun b => Text.lower b.1 == variableLead ++ name).map Prod.snd

def flag? (word : String) : Option Bool :=
  let word := Text.lower word
  if ["true", "1", "yes", "on", "t", "y"].contains word then some true
  else if ["false", "0", "no", "off", "f", "n"].contains word then some false
  else none

/-- A setting that was given is read; one that makes no sense is called by its name. -/
def readAs {α : Type} (name : String) (fallback : α) (read : String → Option α) :
    Option String → Except String α
  | none => .ok fallback
  | some text =>
    match read text with
    | some a => .ok a
    | none => .error name

def ofVariables (given : String → Option String) : Except Failure Settings :=
  let layout := readAs "log_format" Log.Layout.simple Log.Layout.ofName? (given "log_format")
  let toFile := readAs "log_to_file" false flag? (given "log_to_file")
  match layout, toFile with
  | .ok logFormat, .ok logToFile =>
    .ok
      { logLevel := (given "log_level").getD "ERROR"
        logFormat
        logToFile
        logFile := given "log_file" }
  | .error a, .error b => .error (.settings [a, b])
  | .error a, .ok _ => .error (.settings [a])
  | .ok _, .error b => .error (.settings [b])

def fileContents (w : Workspace) : Except Failure EnvFile.Contents :=
  let p := Path.ofText variableFile
  match w.readText p with
  | .ok text => .ok (EnvFile.contents text)
  | .error .notText => .error .notText
  | .error _ => .ok {}

def brokenRecord (line : Nat) : Log.Record :=
  ⟨.warning, Log.environmentLogger,
    "python-dotenv could not parse statement starting at line " ++ toString line⟩

def load (w : Workspace) : Logged (Except Failure Settings) :=
  match fileContents w with
  | .error f => { value := .error f }
  | .ok contents =>
    let bindings := (EnvFile.resolve w.environment contents.bindings).map fun b => (b.name, b.value)
    { value := ofVariables fun name =>
        match lastBound name w.environment with
        | some text => some text
        | none => (lastBound name bindings).join
      records := contents.broken.map brokenRecord }

end Settings

end DalSchema
