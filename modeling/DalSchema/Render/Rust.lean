import DalSchema.Log.Record
import DalSchema.Render.Sink
import DalSchema.Schema.Basic
import DalSchema.Text.Kebab

/-!
# Rust types

Enums become Rust enums and tables become structs with one public field per column, named in lower
case. Options add derives for serde and juniper, and the conversions that rusqlite needs: enum
variants are stored in kebab case, and rows are read by the position of the column.
-/

namespace DalSchema

structure RustOptions where
  serde : Bool := false
  juniper : Bool := false
  sqlite : Bool := false
  deriving Repr, DecidableEq, Inhabited

namespace Rust

open Log

def scalarText : ScalarType → String
  | .char => "char"
  | .varchar | .text => "String"
  | .number | .int | .serial | .mediumInt => "i32"
  | .smallInt => "i16"
  | .bigInt => "i64"
  | .float | .real | .numeric | .decimal => "f64"
  | .dateTime => "chrono::DateTime<chrono::Utc>"
  | .boolean => "bool"

def typeText : ColumnType → String
  | .scalar type => scalarText type
  | .raw text => text

/-- The type of the field for a column; a nullable column may be absent. -/
def fieldType (c : Column) : String :=
  if c.nullable then "std::option::Option<" ++ typeText c.type ++ ">" else typeText c.type

def fieldName (c : Column) : String := Text.lower c.name

/-- `depth` levels of indentation. -/
def indent (depth : Nat) : String := String.ofList (List.replicate (4 * depth) ' ')

def baseDerives : List String := ["Clone", "Debug", "Hash", "PartialEq", "Eq", "PartialOrd", "Ord"]

def deriveLine (options : RustOptions) (juniperTrait : String) : String :=
  let derives := baseDerives ++
    (if options.serde then ["serde::Deserialize", "serde::Serialize"] else []) ++
    (if options.juniper then [juniperTrait] else [])
  "#[derive(" ++ ", ".intercalate derives ++ ")]"

def variantLine (variant : String) : String := indent 1 ++ variant ++ ","

def enumLines (options : RustOptions) (e : EnumDecl) : List String :=
  [deriveLine options "juniper::GraphQLEnum", "pub enum " ++ e.name ++ " \x7b"] ++
    e.variants.map variantLine ++ ["\x7d"]

/-- The arm that stores a variant. -/
def storeArm (enumName variant : String) : String :=
  indent 3 ++ enumName ++ "::" ++ variant ++ " => Ok(\"" ++ Text.kebab variant ++ "\".into()),"

/-- The arm that reads a variant back. -/
def loadArm (enumName variant : String) : String :=
  indent 3 ++ "\"" ++ Text.kebab variant ++ "\" => Ok(" ++ enumName ++ "::" ++ variant ++ "),"

def storeLines (e : EnumDecl) : List String :=
  ["impl rusqlite::types::ToSql for " ++ e.name ++ " \x7b",
    indent 1 ++ "fn to_sql(&self) -> rusqlite::Result<rusqlite::types::ToSqlOutput<'_>> \x7b",
    indent 2 ++ "match self \x7b"] ++
    e.variants.map (storeArm e.name) ++ [indent 2 ++ "\x7d", indent 1 ++ "\x7d", "\x7d"]

def loadLines (e : EnumDecl) : List String :=
  ["impl rusqlite::types::FromSql for " ++ e.name ++ " \x7b",
    indent 1 ++ "fn column_result(value: rusqlite::types::ValueRef<'_>) -> " ++
      "rusqlite::types::FromSqlResult<Self> \x7b",
    indent 2 ++ "value.as_str().and_then(|s| match s \x7b"] ++
    e.variants.map (loadArm e.name) ++
    [indent 3 ++ "_ => Err(rusqlite::types::FromSqlError::InvalidType),", indent 2 ++ "\x7d)",
      indent 1 ++ "\x7d", "\x7d"]

/-- The blocks of text for an enum: its type, and with rusqlite its two conversions. -/
def enumBlocks (options : RustOptions) (e : EnumDecl) : List String :=
  "\n".intercalate (enumLines options e) ::
    if options.sqlite then ["\n".intercalate (storeLines e), "\n".intercalate (loadLines e)] else []

def fieldLine (c : Column) : String :=
  indent 1 ++ "pub " ++ fieldName c ++ ": " ++ fieldType c ++ ","

def tableLines (options : RustOptions) (t : TableDecl) : List String :=
  [deriveLine options "juniper::GraphQLObject", "pub struct " ++ t.name ++ " \x7b"] ++
    t.columns.map fieldLine ++ ["\x7d"]

/-- The line that reads the field of the column at position `index`. -/
def rowLine (index : Nat) (c : Column) : String :=
  indent 3 ++ fieldName c ++ ": row.get(" ++ toString index ++
    ").context(\"Failed to get data for row index " ++ toString index ++ " (" ++ fieldName c ++
    ")\")?,"

def rowLines (t : TableDecl) : List String :=
  ["impl rewryte::sqlite::FromRow for " ++ t.name ++ " \x7b",
    indent 1 ++ "fn from_row(row: &rusqlite::Row<'_>) -> anyhow::Result<Self>",
    indent 1 ++ "where",
    indent 2 ++ "Self: Sized,",
    indent 1 ++ "\x7b",
    indent 2 ++ "Ok(Self \x7b"] ++
    t.columns.mapIdx rowLine ++ [indent 2 ++ "\x7d)", indent 1 ++ "\x7d", "\x7d"]

/-- The blocks of text for a table: its struct, and with rusqlite the reading of a row. -/
def tableBlocks (options : RustOptions) (t : TableDecl) : List String :=
  "\n".intercalate (tableLines options t) ::
    if options.sqlite then ["\n".intercalate (rowLines t)] else []

def itemBlocks (options : RustOptions) : Item → List String
  | .enum decl => enumBlocks options decl
  | .table decl => tableBlocks options decl

def schemaBlocks (options : RustOptions) (s : Schema) : List String :=
  (if options.sqlite && !s.tables.isEmpty then ["use anyhow::Context;"] else []) ++
    s.items.flatMap (itemBlocks options)

/-- All blocks are written at once, and then the end of the last line if there was any block. -/
def writeSchema {σ ε : Type} (sink : Sink σ ε) (options : RustOptions) (s : Schema) :
    Writing σ (RenderFault ε) Unit := do
  let blocks := schemaBlocks options s
  sink.put ("\n\n".intercalate blocks)
  unless blocks.isEmpty do sink.put "\n"

def flagWord (flag : Bool) : String := if flag then "True" else "False"

def records (options : RustOptions) (s : Schema) : List Record :=
  [⟨.info, rustLogger, "Rendering " ++ toString s.items.length ++ " item(s) as rust (serde=" ++
    flagWord options.serde ++ ", juniper=" ++ flagWord options.juniper ++ ", sqlite=" ++
    flagWord options.sqlite ++ ")"⟩]

end Rust

end DalSchema
