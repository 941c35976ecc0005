import DalSchema.Log.Record
import DalSchema.Render.Dialect
import DalSchema.Render.Sink
import DalSchema.Schema.Basic

/-!
# Data definitions in SQL

A schema is written to a sink piece by piece. The layout of a table is the same in every dialect:
its columns, the primary key, the foreign keys and the unique keys, each on a line of its own with
commas between them. A column is written only if the dialect knows its type.
-/

namespace DalSchema.Dialect

open Log Writing

section

variable {σ ε : Type} (d : Dialect) (sink : Sink σ ε)

def formatType (type : ColumnType) : Writing σ (RenderFault ε) String :=
  match type with
  | .raw text => return text
  | .scalar type =>
    match d.keyword? type with
    | some keyword => return keyword
    | none => throw (.unknownType type)

def writeColumn (c : Column) : Writing σ (RenderFault ε) Unit := do
  let type ← d.formatType c.type
  sink.put ("  " ++ c.name ++ " " ++ type)
  unless c.nullable do sink.put " NOT NULL"
  sink.put (d.defaultText c.default)

def writeForeignKey (k : ForeignKey) : Writing σ (RenderFault ε) Unit :=
  sink.put ("  FOREIGN KEY (" ++ k.localColumn ++ ") REFERENCES " ++ k.table ++ "(" ++
    k.foreignColumn ++ ") ON UPDATE " ++ k.onUpdate.keywords ++ " ON DELETE " ++
    k.onDelete.keywords)

/-- What follows the primary key up to the closing bracket. Each clause ends its own line only when
nothing follows it. -/
def writeKeys (foreignKeys : List ForeignKey) (uniqueKeys : List String) :
    Writing σ (RenderFault ε) Unit := do
  if !foreignKeys.isEmpty then
    sink.put ",\n"
    forEach foreignKeys fun k more => do
      writeForeignKey sink k
      if more then sink.put ",\n"
    if uniqueKeys.isEmpty then sink.put "\n"
  else if uniqueKeys.isEmpty then sink.put "\n"
  if !uniqueKeys.isEmpty then
    sink.put ",\n"
    sink.put ("  UNIQUE (" ++ ", ".intercalate uniqueKeys ++ ")\n")

def writeTable (t : TableDecl) : Writing σ (RenderFault ε) Unit := do
  sink.put "CREATE TABLE"
  if t.ifNotExists then sink.put " IF NOT EXISTS"
  sink.put (" " ++ t.name ++ " (\n")
  t.columns.forM fun c => do
    d.writeColumn sink c
    sink.put ",\n"
  sink.put ("  PRIMARY KEY (" ++ ", ".intercalate t.primaryKeys ++ ")")
  writeKeys sink t.foreignKeys t.uniqueKeys
  sink.put ");"

/-- An enum is written only where the dialect has named enum types. -/
def writeEnum (e : EnumDecl) : Writing σ (RenderFault ε) Unit := do
  if d.hasEnums then
    sink.put ("CREATE TYPE " ++ e.name ++ " AS ENUM (\n")
    forEach e.variants fun variant more => do
      sink.put ("  '" ++ variant ++ "'")
      if more then sink.put ","
      sink.put "\n"
    sink.put ");"

def writeItem : Item → Writing σ (RenderFault ε) Unit
  | .enum decl => d.writeEnum sink decl
  | .table decl => d.writeTable sink decl

/-- Each item ends its line, and an empty line stands between two of them. -/
def writeSchema (s : Schema) : Writing σ (RenderFault ε) Unit :=
  forEach s.items fun item more => do
    d.writeItem sink item
    sink.put "\n"
    if more then sink.put "\n"

end

/-- The record of an item that is left out. -/
def skipped? (d : Dialect) : Item → Option Record
  | .enum decl =>
    if d.hasEnums then none
    else some ⟨.debug, sqlLogger,
      "Skipping enum " ++ decl.name ++ ": " ++ d.name ++ " has no native enum type"⟩
  | .table _ => none

def records (d : Dialect) (s : Schema) : List Record :=
  ⟨.info, sqlLogger, "Rendering " ++ toString s.items.length ++ " item(s) as " ++ d.name⟩ ::
    s.items.filterMap d.skipped?

end DalSchema.Dialect
