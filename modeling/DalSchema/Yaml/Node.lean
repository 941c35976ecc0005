import DalSchema.Yaml.Tag
import DalSchema.Yaml.Token

/-!
# From tokens to nodes

A document is one node: a scalar, a list or a record. A node may be named by an anchor, and an alias
repeats the node of that name, even inside that node itself.
-/

namespace DalSchema.Yaml

inductive Node where
  | scalar (tag : Tag) (text : String)
  /-- A list, with the number that tells it from other collections. -/
  | list (id : Nat) (tag : Tag) (items : List Node)
  | record (id : Nat) (tag : Tag) (entries : List (Node × Node))
  | alias (name : String)
  deriving Repr, Inhabited

def Node.empty : Node := .scalar .none ""

/-- What is left to read, the names given by anchors, the nodes of those that have ended, what the
tag handles stand for, and how many collections have begun. -/
structure Reader where
  tokens : List Token
  /-- What stopped the tokens, if it was not the end of the text. -/
  fault : Option Fault := none
  names : List String := []
  anchors : List (String × Node) := []
  handles : List (String × String) := []
  collections : Nat := 0
  /-- How many collections have not ended yet. -/
  depth : Nat := 0

abbrev Parse := StateT Reader (Except Fault)

namespace Parse

def next : Parse (Option Token) := do
  let r ← get
  match r.tokens, r.fault with
  | [], some fault => throw fault
  | tokens, _ => return tokens.head?

def skip : Parse Unit := modify fun r => { r with tokens := r.tokens.tail }

def malformed {α : Type} : Parse α := throw .malformed

def skipIf (t : Token) : Parse Bool := do
  if (← next) == some t then
    skip
    return true
  else return false

def expect (t : Token) : Parse Unit := do
  if !(← skipIf t) then malformed

def sees (ts : List Token) : Parse Bool := do return (← next).any ts.contains

def standardHandles : List (String × String) := [("!", "!"), ("!!", "tag:yaml.org,2002:")]

def resolveTag (handle : Option String) (suffix : String) : Parse String := do
  match handle with
  | none => return suffix
  | some h =>
    match ((← get).handles ++ standardHandles).lookup h with
    | some lead => return lead ++ suffix
    | none => malformed

def anchor? : Parse (Option String) := do
  match ← next with
  | some (.anchor name) => do
    skip
    return some name
  | _ => return none

def tag? : Parse (Option String) := do
  match ← next with
  | some (.tag handle suffix) => do
    skip
    return some (← resolveTag handle suffix)
  | _ => return none

def properties : Parse (Option String × Option String) := do
  match ← anchor? with
  | some name => return (some name, ← tag?)
  | none =>
    match ← tag? with
    | none => return (none, none)
    | some tag => return (← anchor?, some tag)

def declare (anchor : Option String) : Parse Unit := do
  match anchor with
  | none => return ()
  | some name =>
    if (← get).names.contains name then malformed
    else modify fun r => { r with names := name :: r.names }

def remember (anchor : Option String) (content : Node) : Parse Unit := do
  match anchor with
  | none => return ()
  | some name => modify fun r => { r with anchors := (name, content) :: r.anchors }

def depthLimit : Nat := 480

def collection (read : Nat → Parse Node) : Parse Node := do
  let r ← get
  if depthLimit ≤ r.depth then throw .tooDeep
  set { r with collections := r.collections + 1, depth := r.depth + 1 }
  let node ← read r.collections
  modify fun r => { r with depth := r.depth - 1 }
  return node

/-- The tag of a scalar: without one, how it is written decides. -/
def scalarTag (written : Option String) (plain : Bool) (text : String) : Tag :=
  match written with
  | none => if plain then .ofPlain text else .text
  | some "!" => .ofPlain text
  | some name => .ofName name

def collectionTag (written : Option String) (usual : Tag) : Tag :=
  match written with
  | none | some "!" => usual
  | some name => .ofName name

mutual

/-- Reads a node. Inside brackets no indented collection may begin; where `listHere` holds, the
items of a list may stand without further indentation. -/
def node (block listHere : Bool) : Nat → Parse Node
  | 0 => malformed
  | fuel + 1 => do
    match ← next with
    | some (.alias name) => do
      skip
      if (← get).names.contains name then return .alias name else malformed
    | _ => do
      let (anchor, tag) ← properties
      declare anchor
      let content ← match ← next with
        | some (.scalar text plain) => do
          skip
          pure (Node.scalar (scalarTag tag plain text) text)
        | some .openList => do
          skip
          collection fun id => do
            return .list id (collectionTag tag .list) (← flowItems true fuel)
        | some .openRecord => do
          skip
          collection fun id => do
            return .record id (collectionTag tag .record) (← flowEntries true fuel)
        | other =>
          if other == some .item && listHere then
            collection fun id => do
              return .list id (collectionTag tag .list) (← looseItems fuel)
          else if other == some .listStart && block then do
            skip
            collection fun id => do
              return .list id (collectionTag tag .list) (← blockItems fuel)
          else if other == some .recordStart && block then do
            skip
            collection fun id => do
              return .record id (collectionTag tag .record) (← blockEntries fuel)
          else if anchor.isSome || tag.isSome then pure (Node.scalar (scalarTag tag true "") "")
          else malformed
      remember anchor content
      return content

def nodeUnless (stops : List Token) (block listHere : Bool) : Nat → Parse Node
  | 0 => malformed
  | fuel + 1 => do
    if ← sees stops then return .empty else node block listHere fuel

def blockItems : Nat → Parse (List Node)
  | 0 => malformed
  | fuel + 1 => do
    if ← skipIf .item then
      let first ← nodeUnless [.item, .blockEnd] true false fuel
      return first :: (← blockItems fuel)
    else do
      expect .blockEnd
      return []

/-- The items of a list that is indented no further than the record it is a value of. -/
def looseItems : Nat → Parse (List Node)
  | 0 => malformed
  | fuel + 1 => do
    if ← skipIf .item then
      let first ← nodeUnless [.item, .key, .value, .blockEnd] true false fuel
      return first :: (← looseItems fuel)
    else return []

def blockEntries : Nat → Parse (List (Node × Node))
  | 0 => malformed
  | fuel + 1 => do
    if ← skipIf .key then
      let key ← nodeUnless [.key, .value, .blockEnd] true true fuel
      let value ←
        if ← skipIf .value then nodeUnless [.key, .value, .blockEnd] true true fuel
        else pure .empty
      return (key, value) :: (← blockEntries fuel)
    else do
      expect .blockEnd
      return []

/-- The items of a list between brackets. An item may be a record of one entry without brackets. -/
def flowItems (first : Bool) : Nat → Parse (List Node)
  | 0 => malformed
  | fuel + 1 => do
    if ← skipIf .closeList then return []
    else do
      if !first then expect .comma
      if ← skipIf .key then
        let entry ← collection fun id => do
          let key ← nodeUnless [.value, .comma, .closeList] false false fuel
          let value ←
            if ← skipIf .value then nodeUnless [.comma, .closeList] false false fuel
            else pure .empty
          return .record id .record [(key, value)]
        return entry :: (← flowItems false fuel)
      else if ← skipIf .closeList then return []
      else
        let item ← node false false fuel
        return item :: (← flowItems false fuel)

def flowEntries (first : Bool) : Nat → Parse (List (Node × Node))
  | 0 => malformed
  | fuel + 1 => do
    if ← skipIf .closeRecord then return []
    else do
      if !first then expect .comma
      if ← skipIf .key then
        let key ← nodeUnless [.value, .comma, .closeRecord] false false fuel
        let value ←
          if ← skipIf .value then nodeUnless [.comma, .closeRecord] false false fuel
          else pure .empty
        return (key, value) :: (← flowEntries false fuel)
      else if ← skipIf .closeRecord then return []
      else
        let key ← node false false fuel
        return (key, .empty) :: (← flowEntries false fuel)

end

def directives : Nat → Bool → Parse Unit
  | 0, _ => malformed
  | fuel + 1, versioned => do
    match ← next with
    | some (.directive d) => do
      skip
      match d with
      | .version major =>
        if versioned || major != 1 then malformed else directives fuel true
      | .tag handle lead =>
        if ((← get).handles.lookup handle).isSome then malformed
        else
          modify fun r => { r with handles := (handle, lead) :: r.handles }
          directives fuel versioned
      | .other => directives fuel versioned
    | _ => return ()

def skipDocumentEnds : Nat → Parse Unit
  | 0 => malformed
  | fuel + 1 => do
    if ← skipIf .documentEnd then skipDocumentEnds fuel else return ()

def documentOver : Parse Bool := do
  match ← next with
  | none | some (.directive _) | some .documentStart | some .documentEnd => return true
  | _ => return false

def document (fuel : Nat) : Parse (Option Node) := do
  match ← next with
  | none => return none
  | some (.directive _) | some .documentStart => do
    directives fuel false
    expect .documentStart
    let content ← if ← documentOver then pure Node.empty else node true false fuel
    finish content
  | _ => do
    let content ← node true false fuel
    finish content
where
  finish (content : Node) : Parse (Option Node) := do
    skipDocumentEnds fuel
    if (← next).isSome then malformed
    return some content

end Parse

structure Document where
  root : Node
  anchors : List (String × Node) := []
  deriving Repr, Inhabited

/-- The document that tokens spell. No step can go on for longer than the tokens last. -/
def Document.ofTokens (scanned : Scanned) : Except Fault (Option Document) := do
  let fuel := 4 * scanned.tokens.length + 8
  let reader : Reader := { tokens := scanned.tokens, fault := scanned.fault }
  let (root, reader) ← (Parse.document fuel).run reader
  return root.map fun root => { root, anchors := reader.anchors }

end DalSchema.Yaml
