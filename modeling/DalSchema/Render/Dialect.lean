import DalSchema.Schema.Vocabulary

/-!
# SQL dialects

A dialect gives the keywords of the scalar types, the expression for the current time, and whether
it has named enum types. The plain dialect knows no scalar type at all; it can write a declaration
only if all its types are written out. The others are full: they have a keyword for every type.
-/

namespace DalSchema

structure Dialect where
  name : String
  keyword? : ScalarType → Option String
  now : String
  hasEnums : Bool

structure FullDialect extends Dialect where
  knows : ∀ type, (keyword? type).isSome = true := by intro type; cases type <;> rfl

namespace Dialect

def plain : Dialect where
  name := "sql"
  keyword? := fun _ => none
  now := ""
  hasEnums := false

/-- A bare `VARCHAR` needs a length here. -/
def mysql : FullDialect where
  name := "mysql"
  keyword?
    | .boolean => "BOOLEAN"
    | .char => "CHAR"
    | .varchar => "VARCHAR(255)"
    | .text => "TEXT"
    | .smallInt => "SMALLINT"
    | .mediumInt => "MEDIUMINT"
    | .number | .int => "INT"
    | .serial => "SERIAL"
    | .bigInt => "BIGINT"
    | .float => "FLOAT"
    | .real => "DOUBLE"
    | .numeric => "NUMERIC"
    | .decimal => "DECIMAL"
    | .dateTime => "DATETIME"
  now := "(UTC_TIMESTAMP())"
  hasEnums := false

/-- The only dialect here with named enum types. -/
def postgresql : FullDialect where
  name := "postgresql"
  keyword?
    | .boolean => "BOOL"
    | .char => "\"char\""
    | .varchar => "VARCHAR"
    | .text => "TEXT"
    | .smallInt => "SMALLINT"
    | .number | .int | .mediumInt | .serial => "INT"
    | .bigInt => "BIGINT"
    | .float | .real => "REAL"
    | .numeric => "NUMERIC"
    | .decimal => "DECIMAL"
    | .dateTime => "TIMESTAMP WITH TIME ZONE"
  now := "(timezone('utc', now()))"
  hasEnums := true

def sqlite : FullDialect where
  name := "sqlite"
  keyword?
    | .boolean => "BOOLEAN"
    | .char | .text => "TEXT"
    | .varchar => "VARCHAR"
    | .number | .smallInt | .mediumInt | .int | .serial => "INTEGER"
    | .bigInt => "BIGINT"
    | .float | .real | .numeric => "REAL"
    | .decimal => "DECIMAL"
    | .dateTime => "DATETIME"
  now := "(DATETIME('now', 'utc'))"
  hasEnums := false

/-- The clause for a default, with a space in front, or nothing. -/
def defaultText (d : Dialect) : DefaultValue → String
  | .none => ""
  | .now => " DEFAULT " ++ d.now
  | .null => " DEFAULT NULL"
  | .raw text => " DEFAULT " ++ text

end Dialect

end DalSchema
