import DalSchema.Files.Store
import DalSchema.Schema.Vocabulary
import DalSchema.Text.Quoted
import DalSchema.Yaml.Fault

/-!
# Failures

A failure stops a run from outside the schema: a file that cannot be read, a configuration or a
setting that makes no sense.
-/

namespace DalSchema

inductive Failure where
  /-- The system refused to work on a path. -/
  | system (error : SystemError) (path : String)
  /-- A path holds the character that ends names. -/
  | unusablePath
  /-- A path is asked for, and there is none. -/
  | noPath
  /-- A file does not hold text. -/
  | notText
  | missingConfiguration (path : String)
  /-- The configuration cannot be read. -/
  | configuration (fault : Yaml.Fault)
  /-- A part of the configuration is asked for a key, and is no record. -/
  | notRecord
  /-- Settings that make no sense, by name. -/
  | settings (names : List String)
  /-- The name of a logging level that is taken by a text. -/
  | levelIsText
  /-- The name of a logging level that is taken by a table. -/
  | levelIsTable
  /-- A scalar type that the renderer has no keyword for. -/
  | unknownType (type : ScalarType)
  deriving Repr, DecidableEq, Inhabited

/-- The text of the failures that have one. -/
def Failure.message? : Failure → Option String
  | .system error path =>
    some ("[Errno " ++ toString error.code ++ "] " ++ error.phrase ++ ": " ++ Text.quoted path)
  | .missingConfiguration path =>
    some ("config.yaml not found at " ++ path ++ ". Please create the configuration file.")
  | _ => none

end DalSchema
