import DalSchema.Schema.OfTree

/-!
# Gathering the columns of a table

Along the members of a table the walk keeps four lists, and along the modifiers of a column also the
default so far. What they hold at any point can be read off the columns that came before:
`TableLists.ofShares` of their shares. `TableLists.foldl_addModifier` is this for the modifiers of
one column, and `TableLists.foldl_addColumn` for the columns of a table.
-/

namespace DalSchema

namespace Modifier

def default? : Modifier → Option DefaultValue
  | default value => some value
  | _ => none

/-! What a modifier gives to the lists of the table, if it stands at the column of this name. -/

def primaryKey? (name : String) : Modifier → Option String
  | primaryKey => some name
  | _ => none

def uniqueKey? (name : String) : Modifier → Option String
  | unique => some name
  | _ => none

def foreignKey? (name : String) : Modifier → Option ForeignKey
  | reference table column onDelete onUpdate => some ⟨name, table, column, onDelete, onUpdate⟩
  | _ => none

end Modifier

/-- What a column gives to its table. -/
structure Share where
  column : Column
  primaryKeys : List String
  foreignKeys : List ForeignKey
  uniqueKeys : List String

namespace ColumnEntry

/-- The default of the last default modifier. -/
def default (e : ColumnEntry) : DefaultValue :=
  (e.modifiers.filterMap Modifier.default?).getLast?.getD .none

def toColumn (e : ColumnEntry) : Column := ⟨e.name, e.type, e.nullable, e.default⟩

def primaryKeys (e : ColumnEntry) : List String :=
  e.modifiers.filterMap (Modifier.primaryKey? e.name)

def uniqueKeys (e : ColumnEntry) : List String :=
  e.modifiers.filterMap (Modifier.uniqueKey? e.name)

def foreignKeys (e : ColumnEntry) : List ForeignKey :=
  e.modifiers.filterMap (Modifier.foreignKey? e.name)

def share (e : ColumnEntry) : Share := ⟨e.toColumn, e.primaryKeys, e.foreignKeys, e.uniqueKeys⟩

end ColumnEntry

/-- The table with these columns, its key lists gathered from their modifiers. -/
def TableDecl.ofEntries (name : String) (ifNotExists : Bool) (entries : List ColumnEntry) :
    TableDecl where
  name := name
  ifNotExists := ifNotExists
  columns := entries.map ColumnEntry.toColumn
  primaryKeys := entries.flatMap ColumnEntry.primaryKeys
  foreignKeys := entries.flatMap ColumnEntry.foreignKeys
  uniqueKeys := entries.flatMap ColumnEntry.uniqueKeys

namespace TableLists

def add (lists : TableLists) (s : Share) : TableLists where
  columns := lists.columns ++ [s.column]
  primaryKeys := lists.primaryKeys ++ s.primaryKeys
  foreignKeys := lists.foreignKeys ++ s.foreignKeys
  uniqueKeys := lists.uniqueKeys ++ s.uniqueKeys

/-- What the lists hold after columns with these shares. -/
def ofShares (shares : List Share) : TableLists where
  columns := shares.map Share.column
  primaryKeys := shares.flatMap Share.primaryKeys
  foreignKeys := shares.flatMap Share.foreignKeys
  uniqueKeys := shares.flatMap Share.uniqueKeys

theorem add_ofShares (shares : List Share) (s : Share) :
    (ofShares shares).add s = ofShares (shares ++ [s]) := by
  simp [add, ofShares]

/-- After some modifiers each list has grown by what they give, and the default is the last one. -/
theorem foldl_addModifier (name : String) (ms : List Modifier) (value : DefaultValue)
    (lists : TableLists) :
    ms.foldl (addModifier name) (value, lists) =
      ((ms.filterMap Modifier.default?).getLast?.getD value,
        { columns := lists.columns
          primaryKeys := lists.primaryKeys ++ ms.filterMap (Modifier.primaryKey? name)
          foreignKeys := lists.foreignKeys ++ ms.filterMap (Modifier.foreignKey? name)
          uniqueKeys := lists.uniqueKeys ++ ms.filterMap (Modifier.uniqueKey? name) }) := by
  induction ms generalizing value lists with
  | nil => simp
  | cons m ms ih =>
    simp only [List.foldl_cons, List.filterMap_cons, Modifier.default?, Modifier.primaryKey?,
      Modifier.foreignKey?, Modifier.uniqueKey?]
    cases m <;> simp [addModifier, ih, List.getLast?_cons]

/-- The walk of a column adds its share, whatever the lists hold. -/
theorem addColumn_eq_add (lists : TableLists) (e : ColumnEntry) :
    lists.addColumn e = lists.add e.share := by
  rw [addColumn, foldl_addModifier]
  rfl

theorem foldl_addColumn (shares : List Share) (entries : List ColumnEntry) :
    entries.foldl addColumn (ofShares shares) =
      ofShares (shares ++ entries.map ColumnEntry.share) := by
  induction entries generalizing shares with
  | nil => simp
  | cons e entries ih =>
    rw [List.foldl_cons, addColumn_eq_add, add_ofShares, ih, List.map_cons, List.append_assoc,
      List.singleton_append]

theorem toTable_foldl_addColumn (name : String) (ifNotExists : Bool)
    (entries : List ColumnEntry) :
    (entries.foldl addColumn {}).toTable name ifNotExists =
      .ofEntries name ifNotExists entries := by
  rw [show ({} : TableLists) = ofShares [] from rfl, foldl_addColumn]
  simp only [toTable, ofShares, TableDecl.ofEntries, List.nil_append, List.map_map,
    List.flatMap_map]
  rfl

end TableLists

end DalSchema
