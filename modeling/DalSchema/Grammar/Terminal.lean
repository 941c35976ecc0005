/-!
# Terminals

The alphabet of the schema grammar: patterns, keywords and punctuation, and the end of the input.
A terminal is described to the author of a schema by its text, or by its name in words when it has
many texts.
-/

namespace DalSchema

inductive Terminal where
  | ident | columnType | defaultValue | action | comment
  | enumWord | tableWord | existsWord | defaultWord | primaryWord | keyWord | uniqueWord
  | refWord | deleteWord | updateWord
  | bang | colon | comma | dot | leftBrace | rightBrace | leftParen | rightParen
  | leftBracket | rightBracket
  | blanks
  | endOfInput
  deriving Repr, DecidableEq, Inhabited

namespace Terminal

def all : List Terminal :=
  [ident, columnType, defaultValue, action, comment, enumWord, tableWord, existsWord, defaultWord,
    primaryWord, keyWord, uniqueWord, refWord, deleteWord, updateWord, bang, colon, comma, dot,
    leftBrace, rightBrace, leftParen, rightParen, leftBracket, rightBracket, blanks, endOfInput]

theorem mem_all (t : Terminal) : t ∈ all := by cases t <;> decide

def name : Terminal → String
  | ident => "IDENT"
  | columnType => "COLUMN_TYPE"
  | defaultValue => "DEFAULT_VALUE"
  | action => "ACTION"
  | comment => "COMMENT"
  | enumWord => "ENUM"
  | tableWord => "TABLE"
  | existsWord => "EXISTS"
  | defaultWord => "DEFAULT"
  | primaryWord => "PRIMARY"
  | keyWord => "KEY"
  | uniqueWord => "UNIQUE"
  | refWord => "REF"
  | deleteWord => "DELETE"
  | updateWord => "UPDATE"
  | bang => "BANG"
  | colon => "COLON"
  | comma => "COMMA"
  | dot => "DOT"
  | leftBrace => "LBRACE"
  | rightBrace => "RBRACE"
  | leftParen => "LPAR"
  | rightParen => "RPAR"
  | leftBracket => "LSQB"
  | rightBracket => "RSQB"
  | blanks => "WS"
  | endOfInput => "$END"

def ofName? (word : String) : Option Terminal := all.find? fun t => t.name == word

def literal? : Terminal → Option String
  | enumWord => some "enum"
  | tableWord => some "table"
  | existsWord => some "exists"
  | defaultWord => some "default"
  | primaryWord => some "primary"
  | keyWord => some "key"
  | uniqueWord => some "unique"
  | refWord => some "ref"
  | deleteWord => some "delete"
  | updateWord => some "update"
  | bang => some "!"
  | colon => some ":"
  | comma => some ","
  | dot => some "."
  | leftBrace => some "\x7b"
  | rightBrace => some "\x7d"
  | leftParen => some "("
  | rightParen => some ")"
  | leftBracket => some "["
  | rightBracket => some "]"
  | ident | columnType | defaultValue | action | comment | blanks | endOfInput => none

/-- What the author of a schema would write for the terminal. -/
def describe : Terminal → String
  | ident => "ident"
  | columnType => "column type"
  | defaultValue => "default value"
  | action => "action"
  | comment => "comment"
  | blanks => "ws"
  | endOfInput => "end of input"
  | t => "`" ++ t.literal?.getD "" ++ "`"

def sortedTexts (texts : List String) : List String :=
  texts.eraseDups.mergeSort fun a b => !decide (b < a)

def describeAll (terminals : List Terminal) : List String :=
  sortedTexts (terminals.map describe)

/-- The descriptions of terminals given by name; an unknown name describes itself. -/
def describeNames (names : List String) : List String :=
  sortedTexts (names.map fun n => ((ofName? n).map describe).getD n)

end Terminal

end DalSchema
