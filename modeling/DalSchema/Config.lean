import DalSchema.Files.Workspace
import DalSchema.Yaml.Document

/-!
# Configuration

A configuration is a record of sections. It is read from a file that comes with the program, unless
the environment names another one.
-/

namespace DalSchema.Config

def fileVariable : String := "DALGEN_CONFIG"

def record (entries : List (String × Value)) : Value :=
  .record (entries.map fun (key, value) => (.text key, value))

def namedFile? (w : Workspace) : Option Path :=
  match w.environment.lookup fileVariable with
  | none => none
  | some text => if text.isEmpty then none else some (.ofText text)

def path (w : Workspace) : Path :=
  (namedFile? w).getD (w.home.join (.ofText "config/config.yaml"))

/-- The value of a document; one that says nothing is the empty record. -/
def ofText (text : List Char) : Except Failure Value :=
  match Yaml.read text with
  | .ok value => .ok (if value.isSet then value else record [])
  | .error fault => .error (.configuration fault)

def load (w : Workspace) : Except Failure Value := do
  let p := path w
  if !(← w.holds p) then throw (.missingConfiguration p.text)
  ofText (← w.readText p)

def get (config : Value) (key : String) (fallback : Value) : Except Failure Value :=
  match config with
  | .record entries => .ok ((Value.lookup key entries).getD fallback)
  | _ => .error .notRecord

/-- A section of a configuration, empty if it is not there. A configuration may be a section of
itself. -/
def sectionOf (config : Value) (name : String) : Except Failure Value := do
  match ← get config name (record []) with
  | .again _ => return config
  | content => return content

def contentOf (config : Value) (name : String) : Except Failure Value := do
  let content ← sectionOf config name
  return if content.isSet then content else record []

end DalSchema.Config
