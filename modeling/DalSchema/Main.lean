import DalSchema.Command.Run
import Std.Time

/-!
# The command

Looks at what a run may ask for, runs it, and carries out what it has left: files, output, status.
-/

namespace DalSchema.Command

/-- The variables that a run may ask for. -/
def variableNames : List String :=
  let names := ["DALGEN_LOG_LEVEL", "DALGEN_LOG_FORMAT", "DALGEN_LOG_TO_FILE", "DALGEN_LOG_FILE"]
  Config.fileVariable :: names ++ names.map Text.lower

def lookUpVariables : IO (List (String × String)) :=
  variableNames.filterMapM fun name => do return (← IO.getEnv name).map fun text => (name, text)

def timeText : IO String :=
  try
    return (← Std.Time.PlainDateTime.now).format "uuuu-MM-dd HH:mm:ss"
  catch _ => return "-"

/-- Adds what is at a path, and at every directory on the way to it. -/
def observe (w : Workspace) (p : Path) : IO Workspace := do
  let directory ← IO.currentDir
  let mut w := w
  for n in List.range (p.parts.length + 1) do
    let onTheWay : Path := { p with parts := p.parts.take n }
    match w.locate onTheWay with
    | .error _ => pure ()
    | .ok place =>
      let file := directory / onTheWay.text
      if ← file.isDir then w := { w with store := w.store.put place .directory }
      else if ← file.pathExists then
        w := { w with store := w.store.put place (.file (← IO.FS.readBinFile file).toList) }
  return w

def startingWorkspace : IO Workspace := do
  let here := (Path.ofText (← IO.currentDir).toString).parts
  let w : Workspace :=
    { here
      home := .ofText (← IO.appDir).toString
      store := {}
      environment := ← lookUpVariables
      stamp := ⟨← timeText, programName⟩ }
  let w ← observe w ⟨"/", here⟩
  observe w (.ofText Settings.variableFile)

def pathsOf (w : Workspace) (i : Invocation) : List Path :=
  let logFile := match (Settings.load w).value with
    | .ok s => if s.logToFile then [Log.filePath w s.logFile] else []
    | .error _ => []
  (i.input.toList ++ i.output.toList).map Path.ofText ++ Config.path w :: logFile

def pathTo (l : Location) : String := "/" ++ "/".intercalate l

/-- Carries out the changes from one store to another. -/
def carryOut (before after : Store) : IO Unit :=
  for (place, found) in after.entries do
    if before.get? place != some found then
      match found with
      | .directory => IO.FS.createDirAll (pathTo place)
      | .file content => IO.FS.writeBinFile (pathTo place) ⟨content.toArray⟩

def execute (arguments : List String) : IO UInt32 := do
  let w ← startingWorkspace
  let paths := match Invocation.ofWords arguments with
    | .ok i => pathsOf w i
    | .error _ => []
  let w ← paths.foldlM observe w
  let report := run w arguments
  carryOut w.store report.workspace.store
  IO.print report.stdout
  IO.eprint report.stderr
  match report.ending with
  | .status code => return code.toUInt32
  | .failed f => do
    IO.eprintln ("error: " ++ f.message?.getD (reprStr f))
    return 1

end DalSchema.Command

def main (arguments : List String) : IO UInt32 := DalSchema.Command.execute arguments
