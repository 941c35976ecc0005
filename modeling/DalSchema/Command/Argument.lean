import DalSchema.Log.Record
import DalSchema.Render.Format

/-!
# Arguments of the command

The arguments that the command knows, and the texts that tell a user about them.
-/

namespace DalSchema.Command

inductive Argument where
  | help | input | output | format | check | serde | juniper | sqlite | logLevel
  deriving Repr, DecidableEq, Inhabited

namespace Argument

def all : List Argument :=
  [help, input, output, format, check, serde, juniper, sqlite, logLevel]

/-- How an argument is written: a short name, if there is one, before the long one. -/
def names : Argument → List String
  | help => ["-h", "--help"]
  | input => ["-i", "--input"]
  | output => ["-o", "--output"]
  | format => ["-f", "--format"]
  | check => ["-c", "--check"]
  | serde => ["--serde"]
  | juniper => ["--juniper"]
  | sqlite => ["--sqlite"]
  | logLevel => ["--log-level"]

def title (a : Argument) : String := "/".intercalate a.names

def takesValue : Argument → Bool
  | input | output | format | logLevel => true
  | _ => false

def choices : Argument → Option (List String)
  | format => some Format.choices
  | logLevel => some (Log.Level.all.map Log.Level.word)
  | _ => none

def table : List (String × Argument) := all.flatMap fun a => a.names.map fun name => (name, a)

def ofName? (name : String) : Option Argument := table.lookup name

end Argument

def programName : String := "dalgen"

def usage : String := "\n".intercalate
  ["usage: dalgen [-h] -i INPUT [-o OUTPUT]",
   "              [-f \x7bmysql,postgres,postgresql,sqlite,rust\x7d] [-c] [--serde]",
   "              [--juniper] [--sqlite]",
   "              [--log-level \x7bDEBUG,INFO,WARNING,ERROR,CRITICAL\x7d]",
   ""]

def helpText : String := usage ++ "\n".intercalate
  ["",
   "Compile DAL schema declarations into SQL DDL or Rust types.",
   "",
   "options:",
   "  -h, --help            show this help message and exit",
   "  -i INPUT, --input INPUT",
   "                        DAL schema file to read",
   "  -o OUTPUT, --output OUTPUT",
   "                        File to write the generated code to (default: stdout)",
   "  -f \x7bmysql,postgres,postgresql,sqlite,rust\x7d, --format " ++
     "\x7bmysql,postgres,postgresql,sqlite,rust\x7d",
   "                        Output format (default: output.default_format from",
   "                        config.yaml)",
   "  -c, --check           Only check the schema for syntax errors",
   "  --serde               rust: derive serde traits",
   "  --juniper             rust: derive juniper GraphQL traits",
   "  --sqlite              rust: emit rusqlite row-mapping impls",
   "  --log-level \x7bDEBUG,INFO,WARNING,ERROR,CRITICAL\x7d",
   "                        Logging level (default: DALGEN_LOG_LEVEL or ERROR)",
   ""]

end DalSchema.Command
