import DalSchema.Proofs.Layout

/-!
# Positions of columns

Three texts go through the columns of a table: the fields of its struct, the reading of a row, and
the clauses of its data definition. A row is read by position, so the three have to agree on which
column stands where and on which may be null: `Rust.columns_in_place`.
-/

namespace DalSchema.Rust

/-- What stands before the fields of a struct. -/
def structOpening (options : RustOptions) (name : String) : List String :=
  [deriveLine options "juniper::GraphQLObject", "pub struct " ++ name ++ " \x7b"]

/-- What stands before the fields in the reading of a row. -/
def rowOpening (name : String) : List String :=
  ["impl rewryte::sqlite::FromRow for " ++ name ++ " \x7b",
    indent 1 ++ "fn from_row(row: &rusqlite::Row<'_>) -> anyhow::Result<Self>",
    indent 1 ++ "where",
    indent 2 ++ "Self: Sized,",
    indent 1 ++ "\x7b",
    indent 2 ++ "Ok(Self \x7b"]

def rowClosing : List String := [indent 2 ++ "\x7d)", indent 1 ++ "\x7d", "\x7d"]

/-- The field for a column that may be null. -/
def optionOf (type : String) : String := "std::option::Option<" ++ type ++ ">"

theorem optionOf_ne (type : String) : type ≠ optionOf type := by
  intro h
  have hlength : type.length = ("std::option::Option<" ++ type ++ ">").length :=
    congrArg String.length h
  have hbracket : ">".length = 1 := rfl
  rw [String.length_append, String.length_append, hbracket] at hlength
  omega

theorem fieldType_eq_optionOf_iff (c : Column) :
    fieldType c = optionOf (typeText c.type) ↔ c.nullable = true := by
  rw [fieldType]
  split
  · next h => exact iff_of_true rfl h
  · next h => exact iff_of_false (optionOf_ne _) h

theorem fieldLine_eq (c : Column) :
    fieldLine c = "    pub " ++ Text.lower c.name ++ ": " ++ fieldType c ++ "," := by
  have hindent : indent 1 ++ "pub " = "    pub " := by decide
  rw [fieldLine, hindent, fieldName]

theorem rowLine_eq (i : Nat) (c : Column) :
    rowLine i c = "            " ++ Text.lower c.name ++ ": row.get(" ++ toString i ++
      ").context(\"Failed to get data for row index " ++ toString i ++ " (" ++
      Text.lower c.name ++ ")\")?," := by
  have hindent : indent 3 = "            " := by decide
  rw [rowLine, hindent, fieldName]

theorem tableBlocks_eq (options : RustOptions) (t : TableDecl) :
    tableBlocks options t =
      "\n".intercalate (structOpening options t.name ++ t.columns.map fieldLine ++ ["\x7d"]) ::
        (if options.sqlite then
          ["\n".intercalate (rowOpening t.name ++ t.columns.mapIdx rowLine ++ rowClosing)]
        else []) := rfl

/-- The column clause asks for a value exactly where the field of the struct is no option. -/
theorem columnClause_eq (d : FullDialect) (c : Column) :
    d.columnClause c = "  " ++ c.name ++ " " ++ d.typeText c.type ++
      (if fieldType c = optionOf (typeText c.type) then "" else " NOT NULL") ++
      d.defaultText c.default := by
  simp only [fieldType_eq_optionOf_iff]
  rfl

/-- Fields, readings and clauses stand one for one at the positions of the columns. -/
theorem columns_in_place (options : RustOptions) (d : FullDialect) (t : TableDecl) :
    ∃ fields readings clauses : List String,
      tableBlocks options t =
        "\n".intercalate (structOpening options t.name ++ fields ++ ["\x7d"]) ::
          (if options.sqlite then
            ["\n".intercalate (rowOpening t.name ++ readings ++ rowClosing)]
          else []) ∧
      (d.writeTable (.buffer : Sink String Empty) t).text =
        .ok (Dialect.tableOpening t ++
          ",\n".intercalate
            (clauses ++ Dialect.primaryKeyClause t.primaryKeys :: Dialect.keyClauses t) ++
          "\n" ++ ");") ∧
      fields.length = t.columns.length ∧
      readings.length = t.columns.length ∧
      clauses.length = t.columns.length ∧
      ∀ (i : Nat) (c : Column), t.columns[i]? = some c →
        fields[i]? = some ("    pub " ++ Text.lower c.name ++ ": " ++ fieldType c ++ ",") ∧
        readings[i]? = some ("            " ++ Text.lower c.name ++ ": row.get(" ++ toString i ++
          ").context(\"Failed to get data for row index " ++ toString i ++ " (" ++
          Text.lower c.name ++ ")\")?,") ∧
        clauses[i]? = some ("  " ++ c.name ++ " " ++ d.typeText c.type ++
          (if fieldType c = optionOf (typeText c.type) then "" else " NOT NULL") ++
          d.defaultText c.default) := by
  refine ⟨t.columns.map fieldLine, t.columns.mapIdx rowLine, t.columns.map d.columnClause,
    tableBlocks_eq options t, (d.spells_writeTable t).text_eq, List.length_map _,
    List.length_mapIdx, List.length_map _, ?_⟩
  intro i c hc
  refine ⟨?_, ?_, ?_⟩
  · rw [List.getElem?_map, hc, Option.map_some, fieldLine_eq]
  · rw [List.getElem?_mapIdx, hc, Option.map_some, rowLine_eq]
  · rw [List.getElem?_map, hc, Option.map_some, columnClause_eq]

end DalSchema.Rust
