import DalSchema.Proofs.Gathering
import DalSchema.Proofs.Lexing
import DalSchema.Tree.Assemble

/-!
# Schemas as they are written

A schema text with nothing left out: every word with its place in the source, punctuation and
comments included. Each part has its lexemes, the node it becomes in a syntax tree, and its value,
which is what it means in a schema. Values do not depend on where the words stand. A phrase that is
no referential action counts as none in a value; whether there is one is a question to the lexemes.
-/

namespace DalSchema

/-- A lexeme of a given terminal whose text fits it. -/
structure Word (t : Terminal) where
  text : List Char
  start : Nat
  fits : text ∈ t.language

namespace Word

variable {t : Terminal}

def lexeme (w : Word t) : Lexeme := ⟨t, w.text, w.start⟩

def string (w : Word t) : String := String.ofList w.text

/-- The node of a rule that consists of this word and shows it. -/
def node (category : Category) (w : Word t) : Node :=
  .tree category (Lexeme.spanAll [w.lexeme]) [Draft.leaf w.lexeme]

end Word

namespace Written

inductive ClauseKind where
  | delete
  | update
  deriving Repr, DecidableEq, Inhabited

def ClauseKind.word : ClauseKind → Terminal
  | delete => .deleteWord
  | update => .updateWord

def ClauseKind.category : ClauseKind → Category
  | delete => .refActionDelete
  | update => .refActionUpdate

/-- The delete and the update action after a clause. -/
def ClauseKind.apply (actions : Action × Action) : ClauseKind × Action → Action × Action
  | (delete, action) => (action, actions.2)
  | (update, action) => (actions.1, action)

/-- `delete: phrase` or `update: phrase`. -/
structure Clause where
  kind : ClauseKind
  word : Word kind.word
  colon : Word .colon
  phrase : Word .action

namespace Clause

def lexemes (c : Clause) : List Lexeme := [c.word.lexeme, c.colon.lexeme, c.phrase.lexeme]

def node (c : Clause) : Node :=
  .tree c.kind.category (Lexeme.spanAll c.lexemes) [c.phrase.node .action]

def value (c : Clause) : ClauseKind × Action :=
  (c.kind, (Action.ofPhrase? c.phrase.string).getD .noAction)

end Clause

structure Separated (α : Type) where
  first : α
  others : List (Word .comma × α)

namespace Separated

variable {α : Type}

def items (s : Separated α) : List α := s.first :: s.others.map Prod.snd

/-- The lexemes of the parts after the first, with their commas. -/
def tailLexemes (lexemes : α → List Lexeme) (others : List (Word .comma × α)) : List Lexeme :=
  others.flatMap fun x => x.1.lexeme :: lexemes x.2

def lexemes (lexemes : α → List Lexeme) (s : Separated α) : List Lexeme :=
  lexemes s.first ++ tailLexemes lexemes s.others

end Separated

structure Clauses where
  opening : Word .leftParen
  list : Separated Clause
  closing : Word .rightParen

namespace Clauses

def lexemes (c : Clauses) : List Lexeme :=
  c.opening.lexeme :: (c.list.lexemes Clause.lexemes ++ [c.closing.lexeme])

def node (c : Clauses) : Node :=
  .tree .refAction (Lexeme.spanAll c.lexemes) (c.list.items.map Clause.node)

def actions (c : Clauses) : Action × Action :=
  (c.list.items.map Clause.value).foldl ClauseKind.apply (.noAction, .noAction)

end Clauses

inductive Modifier where
  | default (word : Word .defaultWord) (colon : Word .colon) (value : Word .defaultValue)
  | primary (word : Word .primaryWord) (key : Word .keyWord)
  | unique (word : Word .uniqueWord)
  | reference (word : Word .refWord) (colon : Word .colon) (table : Word .ident)
      (dot : Word .dot) (column : Word .ident) (clauses : Option Clauses)

namespace Modifier

def lexemes : Modifier → List Lexeme
  | default word colon value => [word.lexeme, colon.lexeme, value.lexeme]
  | primary word key => [word.lexeme, key.lexeme]
  | unique word => [word.lexeme]
  | reference word colon table dot column clauses =>
    [word.lexeme, colon.lexeme, table.lexeme, dot.lexeme, column.lexeme] ++
      clauses.toList.flatMap Clauses.lexemes

def category : Modifier → Category
  | default _ _ _ => .modifierDefault
  | primary _ _ => .modifierPrimary
  | unique _ => .modifierUnique
  | reference _ _ _ _ _ _ => .modifierRef

def children : Modifier → List Node
  | default _ _ value => [value.node .modifierDefaultValue]
  | primary _ _ => []
  | unique _ => []
  | reference _ _ table _ column clauses =>
    [table.node .ident, column.node .ident] ++ clauses.toList.map Clauses.node

def node (m : Modifier) : Node := .tree m.category (Lexeme.spanAll m.lexemes) m.children

def value : Modifier → DalSchema.Modifier
  | default _ _ value => .default (.ofText value.string)
  | primary _ _ => .primaryKey
  | unique _ => .unique
  | reference _ _ table _ column clauses =>
    let actions := (clauses.map Clauses.actions).getD (.noAction, .noAction)
    .reference table.string column.string actions.1 actions.2

end Modifier

structure Group where
  opening : Word .leftBracket
  list : Separated Modifier
  closing : Word .rightBracket

def Group.lexemes (g : Group) : List Lexeme :=
  g.opening.lexeme :: (g.list.lexemes Modifier.lexemes ++ [g.closing.lexeme])

structure Column where
  name : Word .ident
  type : Word .columnType
  null : Option (Word .bang)
  groups : List Group

namespace Column

def modifiers (c : Column) : List Modifier := c.groups.flatMap fun g => g.list.items

def lexemes (c : Column) : List Lexeme :=
  c.name.lexeme :: c.type.lexeme ::
    (c.null.toList.map Word.lexeme ++ c.groups.flatMap Group.lexemes)

/-- The node of the modifiers, if there are any groups. -/
def modifierNodes (c : Column) : List Node :=
  if c.groups.isEmpty then []
  else [.tree .modifiers (Lexeme.spanAll (c.groups.flatMap Group.lexemes))
    (c.modifiers.map Modifier.node)]

def node (c : Column) : Node :=
  .tree .column (Lexeme.spanAll c.lexemes)
    ([c.name.node .ident, c.type.node .columnType] ++
      c.null.toList.map (fun w => .tree .null (Lexeme.spanAll [w.lexeme]) []) ++ c.modifierNodes)

def value (c : Column) : ColumnEntry :=
  ⟨c.name.string, .ofText c.type.string, c.null.isSome, c.modifiers.map Modifier.value⟩

end Column

/-- `[exists]` -/
structure Mark where
  opening : Word .leftBracket
  word : Word .existsWord
  closing : Word .rightBracket

namespace Mark

def lexemes (m : Mark) : List Lexeme := [m.opening.lexeme, m.word.lexeme, m.closing.lexeme]

def node (m : Mark) : Node := .tree .exists_ (Lexeme.spanAll m.lexemes) []

end Mark

end Written

namespace DeclKind

def word : DeclKind → Terminal
  | enum => .enumWord
  | table => .tableWord

def category : DeclKind → Category
  | enum => .declEnum
  | table => .declTable

/-- What the body of a declaration lists. -/
def Entry : DeclKind → Type
  | enum => Word .ident
  | table => Written.Column

def lexemes : (kind : DeclKind) → kind.Entry → List Lexeme
  | enum, variant => [variant.lexeme]
  | table, column => column.lexemes

def node : (kind : DeclKind) → kind.Entry → Node
  | enum, variant => variant.node .variant
  | table, column => column.node

def Value : DeclKind → Type
  | enum => String
  | table => ColumnEntry

def value : (kind : DeclKind) → kind.Entry → kind.Value
  | enum, variant => variant.string
  | table, column => column.value

/-- The declaration of a name with these entries. -/
def item : (kind : DeclKind) → String → Bool → List kind.Value → Item
  | enum, name, ifNotExists, variants => .enum ⟨name, ifNotExists, variants⟩
  | table, name, ifNotExists, entries => .table (.ofEntries name ifNotExists entries)

end DeclKind

namespace Written

inductive Member (kind : DeclKind) where
  | entry (e : kind.Entry)
  | comment (w : Word .comment)

namespace Member

variable {kind : DeclKind}

def lexemes : Member kind → List Lexeme
  | entry e => kind.lexemes e
  | comment w => [w.lexeme]

def node : Member kind → Node
  | entry e => kind.node e
  | comment w => w.node .comment

/-- A comment means nothing. -/
def value? : Member kind → Option kind.Value
  | entry e => some (kind.value e)
  | comment _ => none

end Member

structure Declaration (kind : DeclKind) where
  word : Word kind.word
  name : Word .ident
  mark : Option Mark
  opening : Word .leftBrace
  members : List (Member kind)
  closing : Word .rightBrace

namespace Declaration

variable {kind : DeclKind}

def headLexemes (d : Declaration kind) : List Lexeme :=
  d.word.lexeme :: d.name.lexeme :: (d.mark.toList.flatMap Mark.lexemes ++ [d.opening.lexeme])

def lexemes (d : Declaration kind) : List Lexeme :=
  d.headLexemes ++ d.members.flatMap Member.lexemes ++ [d.closing.lexeme]

def node (d : Declaration kind) : Node :=
  .tree kind.category (Lexeme.spanAll d.lexemes)
    (d.name.node .ident :: (d.mark.toList.map Mark.node ++ d.members.map Member.node))

def value (d : Declaration kind) : Item :=
  kind.item d.name.string d.mark.isSome (d.members.filterMap Member.value?)

end Declaration

inductive Part where
  | declaration (kind : DeclKind) (d : Declaration kind)
  | comment (w : Word .comment)

namespace Part

def lexemes : Part → List Lexeme
  | declaration _ d => d.lexemes
  | comment w => [w.lexeme]

def node : Part → Node
  | declaration _ d => d.node
  | comment w => w.node .comment

def value? : Part → Option Item
  | declaration _ d => some d.value
  | comment _ => none

end Part

def lexemes (parts : List Part) : List Lexeme := parts.flatMap Part.lexemes

def schema (parts : List Part) : Schema := ⟨parts.filterMap Part.value?⟩

end Written

end DalSchema
