import DalSchema.Grammar.Terminal

/-!
# Places in a declaration

Declarations nest to a fixed depth, so where reading stands in a schema text is one of finitely many
places. `Place.next` says which terminals a place allows and where each leads. `Place.trial` says
which terminals are tried on the text there, in that order; after a name and after a comment it is
wider than what the place allows, so that a terminal can be recognised and then refused.
-/

namespace DalSchema

inductive DeclKind where
  | enum
  | table
  deriving Repr, DecidableEq, Inhabited

/-- Where reading stands. Each place is named for what it waits for or what it has just read. -/
inductive Place where
  /-- Between declarations; the flag says that a comment was the last thing read. -/
  | top (afterComment : Bool)
  | declName (kind : DeclKind)
  | declHead (kind : DeclKind)
  | existsWord (kind : DeclKind)
  | existsEnd (kind : DeclKind)
  | bodyStart (kind : DeclKind)
  | body (kind : DeclKind) (afterComment : Bool)
  | columnType
  | afterType
  | afterNull
  | modifier
  | afterModifier
  | afterGroup
  | defaultColon
  | defaultValue
  | primaryKey
  | refColon
  | refTable
  | refDot
  | refColumn
  | afterRef
  | actionKind
  | actionColon
  | actionPhrase
  | afterAction
  deriving Repr, DecidableEq, Inhabited

namespace Place

def accepting : Place → Bool
  | top _ => true
  | _ => false

def afterNameTrial : List Terminal :=
  [.columnType, .comma, .dot, .leftBrace, .leftParen, .leftBracket, .rightBracket]

/-- What may follow a comment somewhere in the grammar, the keywords being read as names. -/
def afterCommentTrial : List Terminal := [.ident, .comment, .rightBrace]

def trial : Place → List Terminal
  | top false => [.comment, .enumWord, .tableWord]
  | top true => afterCommentTrial
  | declName _ => [.ident]
  | declHead _ => afterNameTrial
  | existsWord _ => [.existsWord]
  | existsEnd _ => [.rightBracket]
  | bodyStart _ => [.leftBrace]
  | body _ false => [.ident, .comment, .rightBrace]
  | body _ true => afterCommentTrial
  | columnType => afterNameTrial
  | afterType => [.ident, .comment, .bang, .leftBracket, .rightBrace]
  | afterNull => [.ident, .comment, .leftBracket, .rightBrace]
  | modifier => [.defaultWord, .primaryWord, .refWord, .uniqueWord]
  | afterModifier => [.comma, .rightBracket]
  | afterGroup => [.ident, .comment, .leftBracket, .rightBrace]
  | defaultColon => [.colon]
  | defaultValue => [.defaultValue]
  | primaryKey => [.keyWord]
  | refColon => [.colon]
  | refTable => [.ident]
  | refDot => afterNameTrial
  | refColumn => [.ident]
  | afterRef => afterNameTrial
  | actionKind => [.deleteWord, .updateWord]
  | actionColon => [.colon]
  | actionPhrase => [.action]
  | afterAction => [.comma, .rightParen]

/-- Whether the words `enum` and `table` are keywords although names are tried. -/
def reservesWords : Place → Bool
  | top true | body _ true => true
  | _ => false

def next : Place → Terminal → Option Place
  | top _, .comment => some (top true)
  | top _, .enumWord => some (declName .enum)
  | top _, .tableWord => some (declName .table)
  | declName kind, .ident => some (declHead kind)
  | declHead kind, .leftBrace => some (body kind false)
  | declHead kind, .leftBracket => some (existsWord kind)
  | existsWord kind, .existsWord => some (existsEnd kind)
  | existsEnd kind, .rightBracket => some (bodyStart kind)
  | bodyStart kind, .leftBrace => some (body kind false)
  | body kind _, .comment => some (body kind true)
  | body .enum _, .ident => some (body .enum false)
  | body .table _, .ident => some columnType
  | body _ _, .rightBrace => some (top false)
  | columnType, .columnType => some afterType
  | afterType, .bang => some afterNull
  | afterType, .leftBracket => some modifier
  | afterType, .ident => some columnType
  | afterType, .comment => some (body .table true)
  | afterType, .rightBrace => some (top false)
  | afterNull, .leftBracket => some modifier
  | afterNull, .ident => some columnType
  | afterNull, .comment => some (body .table true)
  | afterNull, .rightBrace => some (top false)
  | modifier, .defaultWord => some defaultColon
  | modifier, .primaryWord => some primaryKey
  | modifier, .refWord => some refColon
  | modifier, .uniqueWord => some afterModifier
  | afterModifier, .comma => some modifier
  | afterModifier, .rightBracket => some afterGroup
  | afterGroup, .leftBracket => some modifier
  | afterGroup, .ident => some columnType
  | afterGroup, .comment => some (body .table true)
  | afterGroup, .rightBrace => some (top false)
  | defaultColon, .colon => some defaultValue
  | defaultValue, .defaultValue => some afterModifier
  | primaryKey, .keyWord => some afterModifier
  | refColon, .colon => some refTable
  | refTable, .ident => some refDot
  | refDot, .dot => some refColumn
  | refColumn, .ident => some afterRef
  | afterRef, .comma => some modifier
  | afterRef, .leftParen => some actionKind
  | afterRef, .rightBracket => some afterGroup
  | actionKind, .deleteWord => some actionColon
  | actionKind, .updateWord => some actionColon
  | actionColon, .colon => some actionPhrase
  | actionPhrase, .action => some afterAction
  | afterAction, .comma => some actionKind
  | afterAction, .rightParen => some afterModifier
  | _, _ => none

def allowed (p : Place) : List Terminal :=
  Terminal.all.filter fun t => (p.next t).isSome || (p.accepting && t == .endOfInput)

end Place

end DalSchema
