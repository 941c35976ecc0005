import DalSchema.Proofs.Building

/-!
# Well-formed schemas

A schema as a data type may hold any strings. In one that was read from a text, the names are
identifiers, a type or a default that is carried through has the form of its terminal and is no
known spelling, and the keys of a table name its own columns: `parse_wellFormed`. The columns of a
table bring all of this with them, since the key lists are gathered from their modifiers.
-/

namespace DalSchema

/-- `[A-Za-z_][A-Za-z0-9_]*` -/
def IsName (s : String) : Prop := s.toList ∈ Pattern.identifier

/-- All spellings of the known types. -/
def ColumnType.spellings : List String := "bool" :: ScalarType.all.map ScalarType.spelling

example : ColumnType.spellings.length = 16 := rfl

def ColumnType.WellFormed : ColumnType → Prop
  | scalar _ => True
  | raw text => text.toList ∈ Terminal.columnType.language ∧ text ∉ spellings

def DefaultValue.WellFormed : DefaultValue → Prop
  | none | now | null => True
  | raw text =>
    text ≠ "" ∧ text.toList ∈ Terminal.defaultValue.language ∧ text ≠ "now()" ∧ text ≠ "null"

structure Column.WellFormed (c : Column) : Prop where
  name : IsName c.name
  type : c.type.WellFormed
  default : c.default.WellFormed

structure ForeignKey.WellFormed (k : ForeignKey) : Prop where
  table : IsName k.table
  foreignColumn : IsName k.foreignColumn

structure EnumDecl.WellFormed (d : EnumDecl) : Prop where
  name : IsName d.name
  variants : ∀ variant ∈ d.variants, IsName variant

/-- The names are identifiers, and all keys are among the names of the columns. -/
structure TableDecl.WellFormed (t : TableDecl) : Prop where
  name : IsName t.name
  columns : ∀ c ∈ t.columns, c.WellFormed
  foreignKeys : ∀ k ∈ t.foreignKeys, k.WellFormed
  primaryKeys_mem : ∀ key ∈ t.primaryKeys, key ∈ t.columns.map Column.name
  uniqueKeys_mem : ∀ key ∈ t.uniqueKeys, key ∈ t.columns.map Column.name
  localColumn_mem : ∀ k ∈ t.foreignKeys, k.localColumn ∈ t.columns.map Column.name

def Item.WellFormed : Item → Prop
  | enum decl => decl.WellFormed
  | table decl => decl.WellFormed

def Schema.WellFormed (s : Schema) : Prop := ∀ item ∈ s.items, item.WellFormed

theorem ScalarType.ofSpelling?_eq_none_iff {word : String} :
    ofSpelling? word = none ↔ word ∉ all.map spelling := by
  simp only [ofSpelling?, List.find?_eq_none, beq_iff_eq, List.mem_map, not_exists, not_and]

theorem ColumnType.wellFormed_ofText {text : String}
    (h : text.toList ∈ Terminal.columnType.language) : (ofText text).WellFormed := by
  rw [ofText]
  split
  next => trivial
  next hbool =>
    split
    next => trivial
    next hnone =>
      refine ⟨h, fun hmem => ?_⟩
      rcases List.mem_cons.mp hmem with hword | hword
      · exact hbool (beq_iff_eq.mpr hword)
      · exact ScalarType.ofSpelling?_eq_none_iff.mp hnone hword

theorem DefaultValue.wellFormed_ofText {text : String}
    (h : text.toList ∈ Terminal.defaultValue.language) : (ofText text).WellFormed := by
  rw [ofText]
  split
  next => trivial
  next hnow =>
    split
    next => trivial
    next hnull =>
      have hempty : text ≠ "" := by
        rintro rfl
        obtain ⟨c, tail, hnil, _⟩ := Terminal.begins_of_mem h
        cases hnil
      exact ⟨hempty, h, fun heq => hnow (beq_iff_eq.mpr heq), fun heq => hnull (beq_iff_eq.mpr heq)⟩

def Modifier.WellFormed : Modifier → Prop
  | default value => value.WellFormed
  | primaryKey | unique => True
  | reference table column _ _ => IsName table ∧ IsName column

structure ColumnEntry.WellFormed (e : ColumnEntry) : Prop where
  name : IsName e.name
  type : e.type.WellFormed
  modifiers : ∀ m ∈ e.modifiers, m.WellFormed

namespace ColumnEntry

variable {e : ColumnEntry}

theorem WellFormed.default (h : e.WellFormed) : e.default.WellFormed := by
  rw [ColumnEntry.default]
  cases hlast : (e.modifiers.filterMap Modifier.default?).getLast? with
  | none => trivial
  | some value =>
    obtain ⟨m, hm, hvalue⟩ := List.mem_filterMap.mp (List.mem_of_getLast? hlast)
    cases m with
    | default v =>
      cases hvalue
      exact h.modifiers _ hm
    | primaryKey | unique | reference _ _ _ _ => cases hvalue

theorem WellFormed.toColumn (h : e.WellFormed) : e.toColumn.WellFormed :=
  ⟨h.name, h.type, h.default⟩

theorem WellFormed.foreignKeys (h : e.WellFormed) : ∀ k ∈ e.foreignKeys, k.WellFormed := by
  intro k hk
  obtain ⟨m, hm, hkey⟩ := List.mem_filterMap.mp hk
  cases m with
  | reference table column onDelete onUpdate =>
    cases hkey
    obtain ⟨htable, hcolumn⟩ := h.modifiers _ hm
    exact ⟨htable, hcolumn⟩
  | default _ | primaryKey | unique => cases hkey

theorem eq_name_of_mem_primaryKeys {key : String} (h : key ∈ e.primaryKeys) : key = e.name := by
  obtain ⟨m, _, hkey⟩ := List.mem_filterMap.mp h
  cases m <;> cases hkey
  rfl

theorem eq_name_of_mem_uniqueKeys {key : String} (h : key ∈ e.uniqueKeys) : key = e.name := by
  obtain ⟨m, _, hkey⟩ := List.mem_filterMap.mp h
  cases m <;> cases hkey
  rfl

theorem localColumn_of_mem_foreignKeys {k : ForeignKey} (h : k ∈ e.foreignKeys) :
    k.localColumn = e.name := by
  obtain ⟨m, _, hkey⟩ := List.mem_filterMap.mp h
  cases m <;> cases hkey
  rfl

end ColumnEntry

theorem TableDecl.wellFormed_ofEntries {name : String} {ifNotExists : Bool}
    {entries : List ColumnEntry} (hname : IsName name) (h : ∀ e ∈ entries, e.WellFormed) :
    (ofEntries name ifNotExists entries).WellFormed := by
  have hmem : ∀ e ∈ entries,
      e.name ∈ (ofEntries name ifNotExists entries).columns.map Column.name := by
    intro e he
    exact List.mem_map_of_mem (List.mem_map_of_mem he)
  refine ⟨hname, ?_, ?_, ?_, ?_, ?_⟩
  · intro c hc
    obtain ⟨e, he, rfl⟩ := List.mem_map.mp hc
    exact (h e he).toColumn
  · intro k hk
    obtain ⟨e, he, hk⟩ := List.mem_flatMap.mp hk
    exact (h e he).foreignKeys k hk
  · intro key hkey
    obtain ⟨e, he, hkey⟩ := List.mem_flatMap.mp hkey
    exact ColumnEntry.eq_name_of_mem_primaryKeys hkey ▸ hmem e he
  · intro key hkey
    obtain ⟨e, he, hkey⟩ := List.mem_flatMap.mp hkey
    exact ColumnEntry.eq_name_of_mem_uniqueKeys hkey ▸ hmem e he
  · intro k hk
    obtain ⟨e, he, hk⟩ := List.mem_flatMap.mp hk
    exact ColumnEntry.localColumn_of_mem_foreignKeys hk ▸ hmem e he

theorem Word.toList_string_mem {t : Terminal} (w : Word t) : w.string.toList ∈ t.language := by
  rw [Word.string, String.toList_ofList]
  exact w.fits

theorem Word.isName (w : Word .ident) : IsName w.string := w.toList_string_mem

namespace Written

theorem Modifier.wellFormed_value (m : Modifier) : m.value.WellFormed := by
  cases m with
  | default _ _ value => exact DefaultValue.wellFormed_ofText value.toList_string_mem
  | primary _ _ | unique _ => trivial
  | reference _ _ table _ column _ => exact ⟨table.isName, column.isName⟩

theorem Column.wellFormed_value (c : Column) : c.value.WellFormed := by
  refine ⟨c.name.isName, ColumnType.wellFormed_ofText c.type.toList_string_mem, ?_⟩
  intro m hm
  obtain ⟨written, _, rfl⟩ := List.mem_map.mp hm
  exact written.wellFormed_value

theorem Declaration.wellFormed_value {kind : DeclKind} (d : Declaration kind) :
    d.value.WellFormed := by
  cases kind with
  | enum =>
    refine ⟨d.name.isName, ?_⟩
    intro variant hvariant
    obtain ⟨member, _, hmember⟩ := List.mem_filterMap.mp hvariant
    cases member with
    | entry word =>
      cases hmember
      exact Word.isName word
    | comment _ => cases hmember
  | table =>
    apply TableDecl.wellFormed_ofEntries d.name.isName
    intro e he
    obtain ⟨member, _, hmember⟩ := List.mem_filterMap.mp he
    cases member with
    | entry column =>
      cases hmember
      exact Column.wellFormed_value column
    | comment _ => cases hmember

theorem wellFormed_schema (parts : List Part) : (schema parts).WellFormed := by
  intro item hitem
  obtain ⟨part, _, hpart⟩ := List.mem_filterMap.mp hitem
  cases part with
  | declaration kind d =>
    cases hpart
    exact d.wellFormed_value
  | comment _ => cases hpart

end Written

theorem parse_wellFormed {ledger after : Ledger} {source : List Char} {schema : Schema}
    (h : ledger.parse source = (.ok schema, after)) : schema.WellFormed := by
  obtain ⟨_, parts, _, _, rfl⟩ := Ledger.parse_eq_ok_iff.mp h
  exact Written.wellFormed_schema parts

theorem parse_wellFormed_keys :
    let source := "table t\x7ba b(2)[default:'x',primary key,ref:c.d]\x7d".toList
    let decl : TableDecl :=
      { name := "t"
        columns := [⟨"a", .raw "b(2)", false, .raw "'x'"⟩]
        primaryKeys := ["a"]
        foreignKeys := [⟨"a", "c", "d", .noAction, .noAction⟩] }
    ({} : Ledger).parse source = (.ok ⟨[.table decl]⟩, {}) ∧ decl.WellFormed := by
  intro source decl
  have hlexemes : lexemes source = .ok
      [⟨.tableWord, "table".toList, 0⟩, ⟨.ident, ['t'], 6⟩, ⟨.leftBrace, ['{'], 7⟩,
        ⟨.ident, ['a'], 8⟩, ⟨.columnType, "b(2)".toList, 10⟩, ⟨.leftBracket, ['['], 14⟩,
        ⟨.defaultWord, "default".toList, 15⟩, ⟨.colon, [':'], 22⟩,
        ⟨.defaultValue, "'x'".toList, 23⟩, ⟨.comma, [','], 26⟩,
        ⟨.primaryWord, "primary".toList, 27⟩, ⟨.keyWord, "key".toList, 35⟩, ⟨.comma, [','], 38⟩,
        ⟨.refWord, "ref".toList, 39⟩, ⟨.colon, [':'], 42⟩, ⟨.ident, ['c'], 43⟩, ⟨.dot, ['.'], 44⟩,
        ⟨.ident, ['d'], 45⟩, ⟨.rightBracket, [']'], 46⟩, ⟨.rightBrace, ['}'], 47⟩] :=
    scan_of_scanWithin (n := 21) (by decide +kernel +zetaReduce)
  have hparse : ({} : Ledger).parse source = (.ok ⟨[.table decl]⟩, {}) := by
    rw [Ledger.parse, Reading.ofSource_of_ok hlexemes]
    rfl
  exact ⟨hparse, parse_wellFormed hparse (.table decl) List.mem_cons_self⟩

end DalSchema
