import DalSchema.Proofs.Delivering

/-!
# Layout of data definitions

A table is laid out as a list of clauses with a comma and a new line between two of them, and a
schema as a list of items with an empty line between two of them. The writers get there without such
lists: what they write after a clause depends on which clauses follow. `render_layout` says that the
two are the same.
-/

namespace DalSchema

theorem intercalate_append_cons (between : String) (texts : List String) (text : String)
    (others : List String) : between.intercalate (texts ++ text :: others) =
      String.join (texts.map (· ++ between)) ++
        (text ++ String.join (others.map (between ++ ·))) := by
  induction texts with
  | nil =>
    rw [List.nil_append, List.map_nil, String.join_nil, String.empty_append]
    induction others generalizing text with
    | nil => rw [String.intercalate_singleton, List.map_nil, String.join_nil, String.append_empty]
    | cons next others ih =>
      rw [String.intercalate_cons_cons, ih, List.map_cons, String.join_cons, String.append_assoc,
        String.append_assoc]
  | cons first texts ih =>
    have hne : texts ++ text :: others ≠ [] := by simp
    rw [List.cons_append, String.intercalate_cons_of_ne_nil hne, ih, List.map_cons,
      String.join_cons, String.append_assoc, String.append_assoc, String.append_assoc]

open Script

namespace Dialect

def primaryKeyClause (keys : List String) : String :=
  "  PRIMARY KEY (" ++ ", ".intercalate keys ++ ")"

def foreignKeyClause (k : ForeignKey) : String :=
  "  FOREIGN KEY (" ++ k.localColumn ++ ") REFERENCES " ++ k.table ++ "(" ++ k.foreignColumn ++
    ") ON UPDATE " ++ k.onUpdate.keywords ++ " ON DELETE " ++ k.onDelete.keywords

/-- One clause for all unique keys. -/
def uniqueClauses (keys : List String) : List String :=
  if keys = [] then [] else ["  UNIQUE (" ++ ", ".intercalate keys ++ ")"]

def keyClauses (t : TableDecl) : List String :=
  t.foreignKeys.map foreignKeyClause ++ uniqueClauses t.uniqueKeys

def tableOpening (t : TableDecl) : String :=
  "CREATE TABLE" ++ (if t.ifNotExists then " IF NOT EXISTS" else "") ++ " " ++ t.name ++ " (\n"

def enumText (e : EnumDecl) : String :=
  "CREATE TYPE " ++ e.name ++ " AS ENUM (\n" ++
    (if e.variants = [] then ""
      else ",\n".intercalate (e.variants.map fun v => "  '" ++ v ++ "'") ++ "\n") ++ ");"

theorem spells_foreignKeys (k : ForeignKey) (ks : List ForeignKey) :
    Spells
      (fun _ _ sink => do
        sink.put ",\n"
        Writing.forEach (k :: ks) fun k more => do
          writeForeignKey sink k
          if more then sink.put ",\n")
      (String.join (((k :: ks).map foreignKeyClause).map (",\n" ++ ·))) := by
  have htext : String.join (((k :: ks).map foreignKeyClause).map (",\n" ++ ·)) = ",\n" ++
      if k :: ks = [] then "" else ",\n".intercalate ((k :: ks).map foreignKeyClause) ++ "" := by
    rw [if_neg (List.cons_ne_nil k ks), String.append_empty, List.map_cons,
      ← List.nil_append (_ :: _), intercalate_append_cons]
    simp [String.append_assoc]
  rw [htext]
  refine (spells_put ",\n").seq (Spells.forEach ?_ ?_ ?_ (k :: ks))
  · exact fun k => spells_put (foreignKeyClause k)
  · exact spells_put ",\n"
  · exact spells_nothing

theorem spells_writeKeys (foreignKeys : List ForeignKey) (uniqueKeys : List String) :
    Spells (fun _ _ sink => writeKeys sink foreignKeys uniqueKeys)
      (String.join
        ((foreignKeys.map foreignKeyClause ++ uniqueClauses uniqueKeys).map (",\n" ++ ·)) ++
        "\n") := by
  have hunique := (spells_put ",\n").seq
    (spells_put ("  UNIQUE (" ++ ", ".intercalate uniqueKeys ++ ")\n"))
  unfold writeKeys
  cases foreignKeys with
  | nil =>
    cases uniqueKeys with
    | nil => simpa [uniqueClauses] using spells_put "\n"
    | cons key keys => simpa [uniqueClauses, String.append_assoc] using hunique
  | cons k ks =>
    cases uniqueKeys with
    | nil =>
      have h := (spells_foreignKeys k ks).seq (spells_put "\n")
      simpa [uniqueClauses] using h
    | cons key keys =>
      have h := (spells_foreignKeys k ks).seq hunique
      simpa [uniqueClauses, String.append_assoc] using h

theorem spells_variants (variants : List String) :
    Spells
      (fun _ _ sink => Writing.forEach variants fun variant more => do
        sink.put ("  '" ++ variant ++ "'")
        if more then sink.put ","
        sink.put "\n")
      (if variants = [] then ""
        else ",\n".intercalate (variants.map fun v => "  '" ++ v ++ "'") ++ "\n") := by
  refine Spells.forEach ?_ ?_ ?_ variants
  · exact fun v => spells_put ("  '" ++ v ++ "'")
  · exact (spells_put ",").seq (spells_put "\n")
  · exact spells_put "\n"

theorem spells_writeEnum (d : Dialect) (e : EnumDecl) :
    Spells (fun _ _ sink => d.writeEnum sink e) (if d.hasEnums then enumText e else "") := by
  unfold writeEnum
  cases d.hasEnums with
  | true =>
    refine ((spells_put ("CREATE TYPE " ++ e.name ++ " AS ENUM (\n")).seq
      ((spells_variants e.variants).seq (spells_put ");"))).of_eq ?_
    delta enumText
    simp only [String.append_assoc, if_true]
  | false => exact spells_nothing

end Dialect

def Item.text (enumText : EnumDecl → String) (tableText : TableDecl → String) : Item → String
  | .enum decl => enumText decl
  | .table decl => tableText decl

/-- Items with an empty line between two of them, the last one ending its line. -/
def Schema.laidOut (itemText : Item → String) (s : Schema) : String :=
  if s.items = [] then "" else "\n\n".intercalate (s.items.map itemText) ++ "\n"

namespace FullDialect

open Dialect

variable (d : FullDialect)

def typeText : ColumnType → String
  | .scalar type => (d.keyword? type).get (d.knows type)
  | .raw text => text

def columnClause (c : Column) : String :=
  "  " ++ c.name ++ " " ++ d.typeText c.type ++ (if c.nullable then "" else " NOT NULL") ++
    d.defaultText c.default

def clauses (t : TableDecl) : List String :=
  t.columns.map d.columnClause ++ primaryKeyClause t.primaryKeys :: keyClauses t

def tableText (t : TableDecl) : String :=
  tableOpening t ++ ",\n".intercalate (d.clauses t) ++ "\n" ++ ");"

def itemText : Item → String :=
  Item.text (fun e => if d.hasEnums then enumText e else "") d.tableText

/-- The lookup of a keyword does not fail. -/
theorem formatType_eq {σ ε : Type} (type : ColumnType) :
    (d.formatType type : Writing σ (RenderFault ε) String) = pure (d.typeText type) := by
  cases type with
  | raw text => rfl
  | scalar type =>
    obtain ⟨keyword, hkeyword⟩ := Option.isSome_iff_exists.mp (d.knows type)
    simp only [formatType, typeText, hkeyword, Option.get_some]

theorem spells_writeColumn (c : Column) :
    Spells (fun _ _ sink => d.writeColumn sink c) (d.columnClause c) := by
  have hhead := spells_put ("  " ++ c.name ++ " " ++ d.typeText c.type)
  have hdefault := spells_put (d.defaultText c.default)
  simp only [writeColumn, formatType_eq, pure_bind]
  unfold columnClause
  cases c.nullable with
  | true => simpa using hhead.seq hdefault
  | false =>
    simpa [String.append_assoc] using hhead.seq ((spells_put " NOT NULL").seq hdefault)

theorem spells_writeTable (t : TableDecl) :
    Spells (fun _ _ sink => d.writeTable sink t) (d.tableText t) := by
  have hcolumn := fun c => (d.spells_writeColumn c).seq (spells_put ",\n")
  have hcolumns := Spells.forM hcolumn t.columns
  have hbody := (spells_put (" " ++ t.name ++ " (\n")).seq <| hcolumns.seq <|
    (spells_put (primaryKeyClause t.primaryKeys)).seq <|
      (spells_writeKeys t.foreignKeys t.uniqueKeys).seq (spells_put ");")
  refine ((spells_put "CREATE TABLE").seq
    (Spells.optional t.ifNotExists (spells_put " IF NOT EXISTS") hbody)).of_eq ?_
  delta tableText tableOpening
  simp only [clauses, keyClauses, intercalate_append_cons, List.map_map, String.append_assoc,
    Function.comp_def]

theorem spells_writeItem (item : Item) :
    Spells (fun _ _ sink => d.writeItem sink item) (d.itemText item) := by
  cases item with
  | enum decl => exact d.spells_writeEnum decl
  | table decl => exact d.spells_writeTable decl

theorem spells_writeSchema (s : Schema) :
    Spells (fun _ _ sink => d.writeSchema sink s) (s.laidOut d.itemText) := by
  refine Spells.forEach ?_ ?_ ?_ s.items
  · exact d.spells_writeItem
  · exact (spells_put "\n").seq (spells_put "\n")
  · simpa using spells_put "\n"

end FullDialect

theorem Format.render_layout (options : RustOptions) (s : Schema) :
    Format.mysql.render options s =
        .ok (s.laidOut (Item.text (fun _ => "") Dialect.mysql.tableText)) ∧
      Format.sqlite.render options s =
        .ok (s.laidOut (Item.text (fun _ => "") Dialect.sqlite.tableText)) ∧
      Format.postgresql.render options s =
        .ok (s.laidOut (Item.text Dialect.enumText Dialect.postgresql.tableText)) := by
  refine ⟨?_, ?_, ?_⟩
  · exact (Dialect.mysql.spells_writeSchema s).text_eq
  · exact (Dialect.sqlite.spells_writeSchema s).text_eq
  · exact (Dialect.postgresql.spells_writeSchema s).text_eq

end DalSchema
