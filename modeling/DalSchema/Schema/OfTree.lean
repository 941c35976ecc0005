import DalSchema.Diagnostic.Ledger
import DalSchema.Schema.Basic
import DalSchema.Tree.Node

/-!
# From a tree to a schema

The tree is walked in order and each node must have the category its parent's shape asks for. The
first node that does not is reported and ends the walk. Optional nodes are looked at and left in
place when they are something else.

The members of a table are walked with four lists that grow along the way, one of columns and three
of keys. The modifiers of a column come one after the other: a default replaces the one before it,
and a key or a reference goes to the end of its list. The column itself goes to the end of the
columns, with the default that is left.
-/

namespace DalSchema

inductive ShapeFault where
  /-- A node of the wrong category: what was wanted there, and the text the node covers. -/
  | misplaced (found : Category) (wanted : String) (text : String) (span : Span)
  | missing (offset : Int)
  | invalidAction (phrase : String) (span : Span)
  /-- A token stands where a node with children is walked. -/
  | childless
  deriving Repr, DecidableEq, Inhabited

inductive Modifier where
  | default (value : DefaultValue)
  | primaryKey
  | unique
  | reference (table column : String) (onDelete onUpdate : Action)
  deriving Repr, DecidableEq, Inhabited

structure ColumnEntry where
  name : String
  type : ColumnType
  nullable : Bool
  modifiers : List Modifier
  deriving Repr, DecidableEq, Inhabited

/-- The lists of a table whose members are being walked. -/
structure TableLists where
  columns : List Column := []
  primaryKeys : List String := []
  foreignKeys : List ForeignKey := []
  uniqueKeys : List String := []
  deriving Repr, DecidableEq, Inhabited

namespace TableLists

def addModifier (name : String) : DefaultValue × TableLists → Modifier → DefaultValue × TableLists
  | (_, lists), .default value => (value, lists)
  | (value, lists), .primaryKey =>
    (value, { lists with primaryKeys := lists.primaryKeys ++ [name] })
  | (value, lists), .reference table column onDelete onUpdate =>
    let key : ForeignKey := ⟨name, table, column, onDelete, onUpdate⟩
    (value, { lists with foreignKeys := lists.foreignKeys ++ [key] })
  | (value, lists), .unique => (value, { lists with uniqueKeys := lists.uniqueKeys ++ [name] })

def addColumn (lists : TableLists) (e : ColumnEntry) : TableLists :=
  let (value, lists) := e.modifiers.foldl (addModifier e.name) (.none, lists)
  { lists with columns := lists.columns ++ [⟨e.name, e.type, e.nullable, value⟩] }

def toTable (name : String) (ifNotExists : Bool) (lists : TableLists) : TableDecl :=
  ⟨name, ifNotExists, lists.columns, lists.primaryKeys, lists.foreignKeys, lists.uniqueKeys⟩

end TableLists

namespace Node

def children : Node → Except ShapeFault (List Node)
  | tree _ _ children => .ok children
  | token _ _ _ _ => .error .childless

def unexpected (source : List Char) (n : Node) (wanted : String) : StateM Ledger ShapeFault := do
  report ⟨"Unexpected token", .point n.span.start,
    "expected " ++ wanted ++ ", found `" ++ n.category.word ++ "`"⟩
  return .misplaced n.category wanted (n.sourceText source) n.span

def endOfStream (parent : Node) : StateM Ledger ShapeFault := do
  report ⟨"Unexpected end of stream", .point parent.stop, "here"⟩
  return .missing parent.stop

/-- The first of the children left, which must have the category; and the others. -/
def expect (source : List Char) (parent : Node) (category : Category) (wanted : String) :
    List Node → Recorder ShapeFault (Node × List Node)
  | [] => do throw (← parent.endOfStream)
  | node :: rest => do
    if node.category = category then return (node, rest)
    else throw (← node.unexpected source wanted)

def accept (category : Category) : List Node → Bool × List Node
  | [] => (false, [])
  | node :: rest => if node.category = category then (true, rest) else (false, node :: rest)

def expectIdent (source : List Char) (parent : Node) (nodes : List Node) :
    Recorder ShapeFault (String × List Node) := do
  let (node, rest) ← expect source parent .ident "`ident`" nodes
  return (node.leafText, rest)

def actionPhrases : String := ", ".intercalate (Action.all.map fun a => "`" ++ a.phrase ++ "`")

def toAction (n : Node) : Recorder ShapeFault Action := do
  match Action.ofPhrase? n.leafText with
  | some action => return action
  | none =>
    report ⟨"Invalid referential action", n.span,
      "expected one of " ++ actionPhrases ++ ", found `" ++ n.leafText ++ "`"⟩
    throw (.invalidAction n.leafText n.span)

/-- The last delete action and the last update action among the clauses of a reference. -/
def toActions (source : List Char) (onDelete onUpdate : Action) :
    List Node → Recorder ShapeFault (Action × Action)
  | [] => return (onDelete, onUpdate)
  | clause :: rest => do
    match clause.category with
    | .refActionDelete =>
      let (phrase, _) ← expect source clause .action "`action`" (← clause.children)
      toActions source (← phrase.toAction) onUpdate rest
    | .refActionUpdate =>
      let (phrase, _) ← expect source clause .action "`action`" (← clause.children)
      toActions source onDelete (← phrase.toAction) rest
    | _ =>
      throw (← clause.unexpected source
        "`modifier reference action delete`, or `modifier reference action update`")

def toReference (source : List Char) (n : Node) : Recorder ShapeFault Modifier := do
  let (table, rest) ← expectIdent source n (← n.children)
  let (column, rest) ← expectIdent source n rest
  match rest with
  | [] => return .reference table column .noAction .noAction
  | clauses :: _ =>
    if clauses.category = .refAction then
      let (onDelete, onUpdate) ← toActions source .noAction .noAction (← clauses.children)
      return .reference table column onDelete onUpdate
    else throw (← clauses.unexpected source "`modifier reference action(s)`")

def toModifier (source : List Char) (n : Node) : Recorder ShapeFault Modifier := do
  match n.category with
  | .modifierDefault =>
    let (value, _) ←
      expect source n .modifierDefaultValue "`modifier default value`" (← n.children)
    return .default (.ofText value.leafText)
  | .modifierPrimary => return .primaryKey
  | .modifierRef => n.toReference source
  | .modifierUnique => return .unique
  | _ =>
    throw (← n.unexpected source
      "`modifier default`, `modifier primary`, `modifier reference`, or `modifier unique`")

def toModifiers (source : List Char) (n : Node) : Recorder ShapeFault (List Modifier) := do
  (← n.children).mapM (toModifier source)

def toColumnEntry (source : List Char) (n : Node) : Recorder ShapeFault ColumnEntry := do
  let (name, rest) ← expectIdent source n (← n.children)
  let (type, rest) ← expect source n .columnType "`column type`" rest
  let (nullable, rest) := accept .null rest
  match rest with
  | [] => return ⟨name, .ofText type.leafText, nullable, []⟩
  | modifiers :: _ =>
    if modifiers.category = .modifiers then
      return ⟨name, .ofText type.leafText, nullable, ← modifiers.toModifiers source⟩
    else throw (← modifiers.unexpected source "`modifiers`")

def addMember (source : List Char) (lists : TableLists) (member : Node) :
    Recorder ShapeFault TableLists := do
  match member.category with
  | .comment => return lists
  | .column => return lists.addColumn (← member.toColumnEntry source)
  | _ => throw (← member.unexpected source "`column` or `comment`")

def addVariant (source : List Char) (variants : List String) (member : Node) :
    Recorder ShapeFault (List String) := do
  match member.category with
  | .comment => return variants
  | .variant => return variants ++ [member.leafText]
  | _ => throw (← member.unexpected source "`variant`")

def toTable (source : List Char) (n : Node) : Recorder ShapeFault TableDecl := do
  let (name, rest) ← expectIdent source n (← n.children)
  let (ifNotExists, members) := accept .exists_ rest
  let lists ← members.foldlM (addMember source) {}
  return lists.toTable name ifNotExists

def toEnum (source : List Char) (n : Node) : Recorder ShapeFault EnumDecl := do
  let (name, rest) ← expectIdent source n (← n.children)
  let (ifNotExists, members) := accept .exists_ rest
  let variants ← members.foldlM (addVariant source) []
  return ⟨name, ifNotExists, variants⟩

def toItem? (source : List Char) (n : Node) : Recorder ShapeFault (Option Item) := do
  match n.category with
  | .declEnum => return some (.enum (← n.toEnum source))
  | .declTable => return some (.table (← n.toTable source))
  | .comment => return none
  | _ => throw (← n.unexpected source "`enum declaration`, `table declaration`, or `comment`")

end Node

/-- The declarations read before a walk ended, and the fault that ended it, if one did. -/
structure Walk where
  items : List Item
  fault : Option ShapeFault
  deriving Repr, DecidableEq, Inhabited

namespace Walk

def ofNodes (source : List Char) : List Node → StateM Ledger Walk
  | [] => return ⟨[], none⟩
  | node :: rest => do
    match ← (node.toItem? source).run with
    | .error fault => return ⟨[], some fault⟩
    | .ok none => ofNodes source rest
    | .ok (some item) =>
      let walk ← ofNodes source rest
      return ⟨item :: walk.items, walk.fault⟩

/-- Walks a whole tree. The source is only used for the texts that faults show. -/
def ofTree (source : List Char) (root : Node) : StateM Ledger Walk := do
  if root.category = .schema then
    match root.children with
    | .ok children => ofNodes source children
    | .error fault => return ⟨[], some fault⟩
  else return ⟨[], some (← root.unexpected source "`schema`")⟩

def result (w : Walk) : Except ShapeFault Schema :=
  match w.fault with
  | none => .ok ⟨w.items⟩
  | some fault => .error fault

end Walk

end DalSchema
