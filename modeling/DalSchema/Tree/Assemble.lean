import DalSchema.Grammar.Place
import DalSchema.Grammar.Lexeme
import DalSchema.Tree.Node

/-!
# From lexemes to a tree

The tree of a schema text grows lexeme by lexeme: at each place a lexeme closes some open nodes,
opens others, is kept as a leaf or dropped, and closes the nodes it completes. A node spans all its
lexemes, the dropped keywords and punctuation included.
-/

namespace DalSchema

/-- What a lexeme does to the tree. -/
structure Growth where
  /-- How many open nodes ended before the lexeme. -/
  closeBefore : Nat := 0
  /-- The nodes that begin with the lexeme, outermost first. -/
  opens : List Category := []
  keep : Bool := false
  /-- How many open nodes end with the lexeme. -/
  closeAfter : Nat := 0
  deriving Repr, DecidableEq, Inhabited

namespace Growth

def drop : Growth := {}

def leaf (category : Category) : Growth := { opens := [category], keep := true, closeAfter := 1 }

def opening (category : Category) : Growth := { opens := [category] }

def closing (count : Nat) : Growth := { closeAfter := count }

def after (count : Nat) (g : Growth) : Growth := { g with closeBefore := count }

def columnStart : Growth := { opens := [.column, .ident], keep := true, closeAfter := 1 }

/-- A lexeme that ends a column of which `count` nodes are open. -/
def afterColumn (count : Nat) : Terminal → Growth
  | .comment => (leaf .comment).after count
  | .ident => columnStart.after count
  | .rightBrace => (closing 1).after count
  | _ => drop

end Growth

def Place.growth : Place → Terminal → Growth
  | top _, .comment => .leaf .comment
  | top _, .enumWord => .opening .declEnum
  | top _, .tableWord => .opening .declTable
  | declName _, .ident => .leaf .ident
  | declHead _, .leftBracket => .opening .exists_
  | existsEnd _, .rightBracket => .closing 1
  | body _ _, .comment => .leaf .comment
  | body .enum _, .ident => .leaf .variant
  | body .table _, .ident => .columnStart
  | body _ _, .rightBrace => .closing 1
  | columnType, .columnType => .leaf .columnType
  | afterType, .bang => { opens := [.null], closeAfter := 1 }
  | afterType, .leftBracket => .opening .modifiers
  | afterType, t => .afterColumn 1 t
  | afterNull, .leftBracket => .opening .modifiers
  | afterNull, t => .afterColumn 1 t
  | afterGroup, .leftBracket => .drop
  | afterGroup, t => .afterColumn 2 t
  | modifier, .defaultWord => .opening .modifierDefault
  | modifier, .primaryWord => .opening .modifierPrimary
  | modifier, .refWord => .opening .modifierRef
  | modifier, .uniqueWord => { opens := [.modifierUnique], closeAfter := 1 }
  | defaultValue, .defaultValue =>
    { opens := [.modifierDefaultValue], keep := true, closeAfter := 2 }
  | primaryKey, .keyWord => .closing 1
  | refTable, .ident => .leaf .ident
  | refColumn, .ident => .leaf .ident
  | afterRef, .leftParen => .opening .refAction
  | afterRef, .comma => Growth.drop.after 1
  | afterRef, .rightBracket => Growth.drop.after 1
  | actionKind, .deleteWord => .opening .refActionDelete
  | actionKind, .updateWord => .opening .refActionUpdate
  | actionPhrase, .action => { opens := [.action], keep := true, closeAfter := 2 }
  | afterAction, .rightParen => .closing 2
  | _, _ => .drop

/-- A node that is still growing; its children are kept last first. -/
structure OpenNode where
  category : Category
  start : Nat
  children : List Node
  deriving Repr, Inhabited

structure Draft where
  place : Place
  /-- The finished top-level nodes, last first. -/
  items : List Node
  /-- The nodes still open, innermost first. -/
  opened : List OpenNode
  stop : Nat
  deriving Repr, Inhabited

namespace Draft

def empty : Draft := ⟨.top false, [], [], 0⟩

def attach (d : Draft) (node : Node) : Draft :=
  match d.opened with
  | [] => { d with items := node :: d.items }
  | inner :: outer =>
    { d with opened := { inner with children := node :: inner.children } :: outer }

def close (d : Draft) : Draft :=
  match d.opened with
  | [] => d
  | inner :: outer =>
    { d with opened := outer }.attach
      (.tree inner.category (some ⟨inner.start, d.stop⟩) inner.children.reverse)

def closeMany (d : Draft) : Nat → Draft
  | 0 => d
  | count + 1 => d.close.closeMany count

def openAll (d : Draft) (start : Nat) (categories : List Category) : Draft :=
  categories.foldl (fun d category => { d with opened := ⟨category, start, []⟩ :: d.opened }) d

def leaf (l : Lexeme) : Node :=
  .token (.other l.terminal.name) (String.ofList l.text) (some l.start) (some l.stop)

def push (d : Draft) (l : Lexeme) : Draft :=
  let growth := d.place.growth l.terminal
  let opened := (d.closeMany growth.closeBefore).openAll l.start growth.opens
  let grown := if growth.keep then opened.attach (leaf l) else opened
  { grown with place := (d.place.next l.terminal).getD d.place, stop := l.stop }.closeMany
    growth.closeAfter

end Draft

def Lexeme.spanAll : List Lexeme → Option Span
  | [] => none
  | first :: rest => some ⟨first.start, ((first :: rest).getLast (by simp)).stop⟩

def Node.ofLexemes (lexemes : List Lexeme) : Node :=
  .tree .schema (Lexeme.spanAll lexemes) (lexemes.foldl Draft.push .empty).items.reverse

end DalSchema
