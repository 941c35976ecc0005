/-!
# Vocabulary of a schema

Column types and defaults have known spellings and carry any other text through as it was written.
Referential actions are a closed set of five phrases.
-/

namespace DalSchema

/-- The column types every output format knows. -/
inductive ScalarType where
  | boolean | char | varchar | text
  | number | smallInt | mediumInt | bigInt | int | serial
  | float | real | numeric | decimal
  | dateTime
  deriving Repr, DecidableEq, Inhabited

namespace ScalarType

def all : List ScalarType :=
  [boolean, char, varchar, text, number, smallInt, mediumInt, bigInt, int, serial, float, real,
    numeric, decimal, dateTime]

def spelling : ScalarType → String
  | boolean => "boolean"
  | char => "char"
  | varchar => "varchar"
  | text => "text"
  | number => "number"
  | smallInt => "smallInt"
  | mediumInt => "mediumInt"
  | bigInt => "bigInt"
  | int => "int"
  | serial => "serial"
  | float => "float"
  | real => "real"
  | numeric => "numeric"
  | decimal => "decimal"
  | dateTime => "dateTime"

/-- The scalar type with exactly this spelling. -/
def ofSpelling? (word : String) : Option ScalarType := all.find? fun t => t.spelling == word

end ScalarType

/-- The type of a column: a known one, or the text written in the schema. -/
inductive ColumnType where
  | scalar (type : ScalarType)
  | raw (text : String)
  deriving Repr, DecidableEq, Inhabited

/-- A type word as schema text spells it; `bool` is a second spelling of `boolean`. -/
def ColumnType.ofText (word : String) : ColumnType :=
  if word == "bool" then .scalar .boolean
  else match ScalarType.ofSpelling? word with
    | some type => .scalar type
    | none => .raw word

/-- The default of a column. -/
inductive DefaultValue where
  | none
  | now
  | null
  | raw (text : String)
  deriving Repr, DecidableEq, Inhabited

def DefaultValue.ofText (literal : String) : DefaultValue :=
  if literal == "now()" then .now
  else if literal == "null" then .null
  else .raw literal

/-- What a foreign key does when the row it refers to changes. -/
inductive Action where
  | noAction | restrict | setNull | setDefault | cascade
  deriving Repr, DecidableEq, Inhabited

namespace Action

def all : List Action := [noAction, restrict, setNull, setDefault, cascade]

def phrase : Action → String
  | noAction => "no action"
  | restrict => "restrict"
  | setNull => "set null"
  | setDefault => "set default"
  | cascade => "cascade"

def keywords : Action → String
  | noAction => "NO ACTION"
  | restrict => "RESTRICT"
  | setNull => "SET NULL"
  | setDefault => "SET DEFAULT"
  | cascade => "CASCADE"

def ofPhrase? (words : String) : Option Action := all.find? fun a => a.phrase == words

@[simp] theorem ofPhrase?_phrase (a : Action) : ofPhrase? a.phrase = some a := by
  cases a <;> decide

end Action

end DalSchema
