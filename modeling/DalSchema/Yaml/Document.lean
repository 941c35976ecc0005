import DalSchema.Yaml.Node
import DalSchema.Yaml.Scalar
import DalSchema.Yaml.Scan

/-!
# The value of a document

A node becomes a value by its tag. In a record a later entry replaces an earlier one of the same
key, and its own entries replace merged ones. Collections are built from the outside to the inside,
so of several faults the one that is nearest to the root counts, and of those the first.
-/

namespace DalSchema.Yaml

/-- A value that is being built, with the faults that were met and how deep they are. -/
structure Build (α : Type) where
  value : α
  faults : List (Nat × Fault) := []

namespace Build

variable {α β : Type}

def map (f : α → β) (b : Build α) : Build β := ⟨f b.value, b.faults⟩

def both (a : Build α) (b : Build β) : Build (α × β) := ⟨(a.value, b.value), a.faults ++ b.faults⟩

def all : List (Build α) → Build (List α)
  | [] => ⟨[], []⟩
  | b :: rest => (both b (all rest)).map fun (value, values) => value :: values

def require (b : Build α) (holds : Bool) (depth : Nat) : Build α :=
  if holds then b else { b with faults := b.faults ++ [(depth, .malformed)] }

def earliest? : List (Nat × Fault) → Option (Nat × Fault)
  | [] => none
  | fault :: rest =>
    match earliest? rest with
    | none => some fault
    | some other => some (if fault.1 ≤ other.1 then fault else other)

def result (b : Build α) : Except Fault α :=
  match earliest? b.faults with
  | none => .ok b.value
  | some (_, fault) => .error fault

end Build

namespace Document

def content (d : Document) : Node → Node
  | .alias name => (d.anchors.lookup name).getD .empty
  | node => node

def tagOf (d : Document) (n : Node) : Tag :=
  match d.content n with
  | .scalar tag _ | .list _ tag _ | .record _ tag _ => tag
  | .alias _ => .unknown

def scalarText? (d : Document) : Nat → Node → Option String
  | 0, _ => none
  | fuel + 1, n =>
    match d.content n with
    | .scalar _ text => some text
    | .record _ _ entries =>
      (entries.find? fun (key, _) => d.tagOf key == .self).bind fun (_, value) =>
        d.scalarText? fuel value
    | _ => none

/-- The entries of a record with what is merged into it in front, so that its own ones replace it.
Of a list of records the first wins. A record that is merged into itself, so that its number is in
`outer`, adds nothing but its own entries. -/
def flatten (d : Document) : Nat → List Nat → List (Node × Node) → Option (List (Node × Node))
  | 0, _, _ => none
  | fuel + 1, outer, entries => do
    let isMerge (entry : Node × Node) : Bool := d.tagOf entry.1 == .merge
    let own (entries : List (Node × Node)) : List (Node × Node) :=
      entries.filter fun entry => !isMerge entry
    let entriesOf (n : Node) : Option (List (Node × Node)) :=
      match d.content n with
      | .record id _ entries =>
        if outer.contains id then some (own entries) else d.flatten fuel (id :: outer) entries
      | _ => none
    let merged ← (entries.filter isMerge).mapM fun (_, n) =>
      match d.content n with
      | .list _ _ items => (items.mapM entriesOf).map fun parts => parts.reverse.flatten
      | _ => entriesOf n
    return merged.flatten ++ own entries

def recordEntries (d : Document) (build : Node → Build Value) (fuel depth : Nat)
    (id : Nat) (entries : List (Node × Node)) : Build (List (Value × Value)) :=
  match d.flatten fuel [id] entries with
  | none => ⟨[], [(depth, .malformed)]⟩
  | some entries =>
    (Build.all (entries.map fun (key, node) =>
      let k := if d.tagOf key == .self then ⟨.text "=", []⟩ else build key
      (k.require k.value.isKey depth).both (build node))).map Value.recordOf

def pairValues (d : Document) (build : Node → Build Value) (depth : Nat) (items : List Node) :
    Build (List Value) :=
  .all (items.map fun item =>
    match d.content item with
    | .record _ _ [(key, node)] => ((build key).both (build node)).map fun (k, v) => .pair k v
    | _ => ⟨.none, [(depth, .malformed)]⟩)

def scalarOf (d : Document) (fuel : Nat) (tag : Tag) (node : Node) : Except Fault Value :=
  match tag, node, d.scalarText? fuel node with
  | .timestamp, .record _ _ _, some _ => .error .dateOfRecord
  | tag, _, some text => scalarValue tag text
  | _, _, none => .error .malformed

/-- The value of a node at some depth, inside the collections whose numbers are in `outer`. What is
inside a collection is one level deeper. -/
def valueOf (d : Document) : Nat → List Nat → Nat → Node → Build Value
  | 0, _, depth, _ => ⟨.none, [(depth, .malformed)]⟩
  | fuel + 1, outer, depth, n =>
    let inner (id : Nat) : Node → Build Value := d.valueOf fuel (id :: outer) (depth + 1)
    match d.tagOf n, d.content n with
    | .list, .list id _ items =>
      if outer.contains id then ⟨.again true, []⟩
      else (Build.all (items.map (inner id))).map .list
    | .pairs, .list id _ items =>
      if outer.contains id then ⟨.again true, []⟩
      else (d.pairValues (inner id) (depth + 1) items).map .list
    | .record, .record id _ entries =>
      if outer.contains id then ⟨.again false, []⟩
      else (d.recordEntries (inner id) fuel (depth + 1) id entries).map .record
    | .set, .record id _ entries =>
      if outer.contains id then ⟨.again false, []⟩
      else
        (d.recordEntries (inner id) fuel (depth + 1) id entries).map fun entries =>
          .set (entries.map Prod.fst)
    | tag, node =>
      if tag.isCollection then ⟨.none, [(depth + 1, .malformed)]⟩
      else
        match d.scalarOf fuel tag node with
        | .ok v => ⟨v, []⟩
        | .error fault => ⟨.none, [(depth, fault)]⟩

end Document

/-- Reads a text that holds at most one document. No node is inside more nodes than there are
tokens. -/
def read (text : List Char) : Except Fault Value := do
  let scanned := tokens text
  match ← Document.ofTokens scanned with
  | none => return .none
  | some d => (d.valueOf (4 * scanned.tokens.length + 8) [] 0 d.root).result

end DalSchema.Yaml
