import DalSchema.Schema.Vocabulary

/-!
# Schemas

A schema is a list of enum and table declarations in the order of its text. The key lists of a table
hold column names as written; nothing here checks them against the columns.
-/

namespace DalSchema

structure Column where
  name : String
  type : ColumnType
  nullable : Bool := false
  default : DefaultValue := .none
  deriving Repr, DecidableEq, Inhabited

/-- A reference from the column `local` to the column `foreign` of `table`. -/
structure ForeignKey where
  localColumn : String
  table : String
  foreignColumn : String
  onDelete : Action := .noAction
  onUpdate : Action := .noAction
  deriving Repr, DecidableEq, Inhabited

structure EnumDecl where
  name : String
  ifNotExists : Bool := false
  variants : List String := []
  deriving Repr, DecidableEq, Inhabited

structure TableDecl where
  name : String
  ifNotExists : Bool := false
  columns : List Column := []
  primaryKeys : List String := []
  foreignKeys : List ForeignKey := []
  uniqueKeys : List String := []
  deriving Repr, DecidableEq, Inhabited

inductive Item where
  | enum (decl : EnumDecl)
  | table (decl : TableDecl)
  deriving Repr, DecidableEq, Inhabited

structure Schema where
  items : List Item := []
  deriving Repr, DecidableEq, Inhabited

namespace Schema

def enums (s : Schema) : List EnumDecl :=
  s.items.filterMap fun | .enum decl => some decl | .table _ => none

def tables (s : Schema) : List TableDecl :=
  s.items.filterMap fun | .table decl => some decl | .enum _ => none

end Schema

end DalSchema
