import DalSchema.Proofs.Moving

/-!
# Outlines of schemas

An outline is what the author of a schema decides on: declarations, their members and the modifiers
of each column, under any names. `Outline.tokens` is how it is written, all but the blanks, and
`Outline.schema` is what it means. The modifiers of a column may be written in any number of groups;
what they mean does not depend on the groups.
-/

namespace DalSchema

open Lexeme Pattern

namespace Outline

open Written (ClauseKind)

/-- Any identifier; a keyword is a name too. -/
abbrev Name := { text : List Char // text ∈ identifier }

/-- An identifier that arguments may directly follow. -/
abbrev TypeName := { text : List Char // text ∈ Terminal.columnType.language }

/-- A text in quotes, or bare characters that do not begin with a quote. -/
def IsLiteral (text : List Char) : Prop :=
  (∃ quote, IsQuote quote ∧ text ∈ quoted quote) ∨
    (text ∈ bare ∧ ∀ c ∈ text.head?, ¬IsQuote c)

abbrev Literal := { text : List Char // IsLiteral text }

inductive Modifier where
  | default (value : Literal)
  | primaryKey
  | unique
  | reference (table column : Name) (clauses : List (ClauseKind × Action))

structure Group where
  first : Modifier
  others : List Modifier

structure Column where
  name : Name
  type : TypeName
  nullable : Bool
  groups : List Group

inductive Declaration where
  | enum (name : Name) (ifNotExists : Bool) (variants : List Name)
  | table (name : Name) (ifNotExists : Bool) (columns : List Column)

def mark (t : Terminal) : Token := (t, (t.literal?.getD "").toList)

def nameToken (name : Name) : Token := (.ident, name)

def separated {α : Type} (tokens : α → List Token) (first : α) (others : List α) : List Token :=
  tokens first ++ others.flatMap fun x => mark .comma :: tokens x

def clauseTokens (clause : ClauseKind × Action) : List Token :=
  [mark clause.1.word, mark .colon, (.action, clause.2.phrase.toList)]

def Modifier.tokens : Modifier → List Token
  | default value => [mark .defaultWord, mark .colon, (.defaultValue, value)]
  | primaryKey => [mark .primaryWord, mark .keyWord]
  | unique => [mark .uniqueWord]
  | reference table column clauses =>
    [mark .refWord, mark .colon, nameToken table, mark .dot, nameToken column] ++
      match clauses with
      | [] => []
      | first :: others =>
        mark .leftParen :: (separated clauseTokens first others ++ [mark .rightParen])

def Group.tokens (g : Group) : List Token :=
  mark .leftBracket :: (separated Modifier.tokens g.first g.others ++ [mark .rightBracket])

def Column.tokens (c : Column) : List Token :=
  nameToken c.name :: (.columnType, c.type) ::
    ((if c.nullable then [mark .bang] else []) ++ c.groups.flatMap Group.tokens)

def existsTokens (ifNotExists : Bool) : List Token :=
  if ifNotExists then [mark .leftBracket, mark .existsWord, mark .rightBracket] else []

def Declaration.tokens : Declaration → List Token
  | enum name ifNotExists variants =>
    mark .enumWord :: nameToken name :: (existsTokens ifNotExists ++ mark .leftBrace ::
      (variants.map nameToken ++ [mark .rightBrace]))
  | table name ifNotExists columns =>
    mark .tableWord :: nameToken name :: (existsTokens ifNotExists ++ mark .leftBrace ::
      (columns.flatMap Column.tokens ++ [mark .rightBrace]))

def tokens (ds : List Declaration) : List Token := ds.flatMap Declaration.tokens

def Name.string (n : Name) : String := String.ofList n

/-- The action of the last clause of a kind; without one there is no action. -/
def lastAction (kind : ClauseKind) (clauses : List (ClauseKind × Action)) : Action :=
  ((clauses.filter fun c => c.1 = kind).getLast?.map Prod.snd).getD .noAction

namespace Column

def modifiers (c : Column) : List Modifier := c.groups.flatMap fun g => g.first :: g.others

def default (c : Column) : DefaultValue :=
  ((c.modifiers.filterMap fun | .default value => some value | _ => none).getLast?.map
    fun value => .ofText (String.ofList value)).getD .none

def toColumn (c : Column) : DalSchema.Column :=
  ⟨c.name.string, .ofText (String.ofList c.type), c.nullable, c.default⟩

def primaryKeys (c : Column) : List String :=
  c.modifiers.filterMap fun | .primaryKey => some c.name.string | _ => none

def uniqueKeys (c : Column) : List String :=
  c.modifiers.filterMap fun | .unique => some c.name.string | _ => none

def foreignKeys (c : Column) : List ForeignKey :=
  c.modifiers.filterMap fun
    | .reference table column clauses =>
      some ⟨c.name.string, table.string, column.string, lastAction .delete clauses,
        lastAction .update clauses⟩
    | _ => none

end Column

def Declaration.item : Declaration → Item
  | enum name ifNotExists variants => .enum ⟨name.string, ifNotExists, variants.map Name.string⟩
  | table name ifNotExists columns =>
    .table
      { name := name.string
        ifNotExists := ifNotExists
        columns := columns.map Column.toColumn
        primaryKeys := columns.flatMap Column.primaryKeys
        foreignKeys := columns.flatMap Column.foreignKeys
        uniqueKeys := columns.flatMap Column.uniqueKeys }

def schema (ds : List Declaration) : Schema := ⟨ds.map Declaration.item⟩

end Outline

end DalSchema
