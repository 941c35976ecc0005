import DalSchema.Text.Span

/-!
# Syntax trees

A node is a token with its text or a tree with children. Nodes of either form have a category. A
tree that was made by hand may carry no span; its span is then taken from its children. Offsets of
such trees are arbitrary integers.
-/

namespace DalSchema

/-- What a node stands for. The categories that schemas are built from are named; any other word may
stand on a node too. -/
inductive Category where
  | schema | declEnum | declTable | comment | ident | exists_ | variant
  | column | columnType | null | modifiers
  | modifierDefault | modifierDefaultValue | modifierPrimary | modifierUnique | modifierRef
  | refAction | refActionDelete | refActionUpdate | action
  | other (word : String)
  deriving Repr, DecidableEq, Inhabited

namespace Category

def named : List (String × Category) :=
  [("schema", schema), ("decl_enum", declEnum), ("decl_table", declTable), ("comment", comment),
    ("ident", ident), ("exists", exists_), ("variant", variant), ("column", column),
    ("column_type", columnType), ("null", null), ("modifiers", modifiers),
    ("modifier_default", modifierDefault), ("modifier_default_value", modifierDefaultValue),
    ("modifier_primary", modifierPrimary), ("modifier_unique", modifierUnique),
    ("modifier_ref", modifierRef), ("ref_action", refAction),
    ("ref_action_delete", refActionDelete), ("ref_action_update", refActionUpdate),
    ("action", action)]

def ofWord (word : String) : Category := (named.lookup word).getD (other word)

def word : Category → String
  | schema => "schema"
  | declEnum => "decl_enum"
  | declTable => "decl_table"
  | comment => "comment"
  | ident => "ident"
  | exists_ => "exists"
  | variant => "variant"
  | column => "column"
  | columnType => "column_type"
  | null => "null"
  | modifiers => "modifiers"
  | modifierDefault => "modifier_default"
  | modifierDefaultValue => "modifier_default_value"
  | modifierPrimary => "modifier_primary"
  | modifierUnique => "modifier_unique"
  | modifierRef => "modifier_ref"
  | refAction => "ref_action"
  | refActionDelete => "ref_action_delete"
  | refActionUpdate => "ref_action_update"
  | action => "action"
  | other word => word

end Category

inductive Node where
  | token (category : Category) (text : String) (start stop : Option Int)
  | tree (category : Category) (span : Option Span) (children : List Node)
  deriving Repr, Inhabited

namespace Node

def category : Node → Category
  | token category _ _ _ => category
  | tree category _ _ => category

mutual

/-- The offset of a node: its own, or that of its first child. -/
def start : Node → Int
  | token _ _ start _ => start.getD 0
  | tree _ (some span) _ => span.start
  | tree _ none children => startOfFirst children

def startOfFirst : List Node → Int
  | [] => 0
  | node :: _ => node.start

end

mutual

/-- The offset after a node: its own, or that after its last child. A token that has none ends after
its text. -/
def stop : Node → Int
  | token _ text start stop => stop.getD (start.getD 0 + text.length)
  | tree _ (some span) _ => span.stop
  | tree _ none children => stopOfLast children

def stopOfLast : List Node → Int
  | [] => 0
  | [node] => node.stop
  | _ :: second :: rest => stopOfLast (second :: rest)

end

def span (n : Node) : Span := ⟨n.start, n.stop⟩

mutual

/-- The texts of the tokens below a node, with a space between those of two children. -/
def leafText : Node → String
  | token _ text _ _ => text
  | tree _ _ children => " ".intercalate (leafTexts children)

def leafTexts : List Node → List String
  | [] => []
  | node :: rest => node.leafText :: leafTexts rest

end

/-- The source text a node covers; its leaf text if there is no source or the span lies outside it.
-/
def sourceText (source : List Char) (n : Node) : String :=
  if !source.isEmpty && 0 ≤ n.start && n.start ≤ n.stop && n.stop ≤ source.length then
    String.ofList ((source.drop n.start.toNat).take (n.stop.toNat - n.start.toNat))
  else n.leafText

end Node

end DalSchema
