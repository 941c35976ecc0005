import DalSchema.Compile.Outcome
import DalSchema.Files.Workspace

/-!
# Compiling a file

The file is read first; only then is the format looked at.
-/

namespace DalSchema

/-- Compiles the schema file at a path. The outer error is that of reading the file. -/
def compileFile (w : Workspace) (path selector : String) (options : RustOptions) :
    Except Failure (Except (RenderFault Empty) (Logged Outcome)) := do
  let p := Path.ofText path
  let source ← w.readText p
  return compileSource w.surroundings source selector p.text options

end DalSchema
