import DalSchema.Diagnostic.Ledger
import DalSchema.Grammar.Tally
import DalSchema.Log.Record
import DalSchema.Problem
import DalSchema.Schema.OfTree
import DalSchema.Tree.Assemble

/-!
# Reading a schema text

Reading scans the text, assembles its tree and walks the tree, with a ledger at hand. It stops at
the first fault of either kind. A fault is told in three ways: as a problem to the caller, as a
notice in the ledger, and as a log record.
-/

namespace DalSchema

open Log

/-- How expected terminals are listed in notes. -/
def expectedPhrase (expected : List Terminal) : String :=
  ", ".intercalate (Terminal.describeAll expected)

namespace Rejection

def notice : Rejection → Notice
  | endOfInput offset _ => ⟨"Unexpected end of stream", .point offset, "here"⟩
  | token text start expected =>
    ⟨"Unexpected token", ⟨start, start + text.length⟩,
      "expected " ++ expectedPhrase expected ++ ", found `" ++ String.ofList text ++ "`"⟩
  | character _ offset expected =>
    ⟨"Unexpected character", ⟨offset, offset + 1⟩, "expected " ++ expectedPhrase expected⟩

def problem (source : List Char) : Rejection → Problem
  | endOfInput _ _ => .endOfStream
  | token text start _ => .unexpectedPair (String.ofList text) ⟨start, start + text.length⟩
  | character found _ expected =>
    let p := stopPosition source
    .grammar "Unexpected character" (some p.line) (some p.column) (some (String.ofList [found]))
      (some (Terminal.describeAll expected))

def record (r : Rejection) : Record where
  level := .debug
  logger := readerLogger
  message := match r with
    | endOfInput _ expected =>
      "Grammar engine hit end of input; expected " ++
        Text.quotedList (Terminal.describeAll expected)
    | token text start expected =>
      "Grammar engine rejected " ++ Text.quoted (String.ofList text) ++ " at " ++ toString start ++
        "; expected " ++ Text.quotedList (Terminal.describeAll expected)
    | character found offset _ =>
      "Grammar engine could not lex " ++ Text.quoted (String.ofList [found]) ++ " at " ++
        toString offset

end Rejection

def ShapeFault.problem : ShapeFault → Problem
  | misplaced _ _ text span => .unexpectedPair text span
  | missing _ => .endOfStream
  | invalidAction phrase _ => .invalidAction phrase
  | childless => .childless

/-- What stops the reading of a schema text. -/
inductive Fault where
  | rejected (rejection : Rejection)
  | misshapen (fault : ShapeFault)
  deriving Repr, DecidableEq, Inhabited

def Fault.problem (source : List Char) : Fault → Problem
  | rejected rejection => rejection.problem source
  | misshapen fault => fault.problem

/-- The record that a finished declaration leaves. -/
def Item.record (item : Item) : Record where
  level := .debug
  logger := builderLogger
  message := match item with
    | .enum decl =>
      "Built enum " ++ decl.name ++ " with " ++ toString decl.variants.length ++ " variant(s)"
    | .table decl =>
      "Built table " ++ decl.name ++ ": " ++ toString decl.columns.length ++ " column(s), " ++
        toString decl.primaryKeys.length ++ " primary, " ++ toString decl.foreignKeys.length ++
        " foreign, " ++ toString decl.uniqueKeys.length ++ " unique key(s)"

/-- The declarations read before reading ended, and the fault that ended it, if one did. -/
structure Reading where
  items : List Item
  fault : Option Fault
  deriving Repr, DecidableEq, Inhabited

/-- Reads a text into its tree. A text that has none is reported and refused. -/
def treeOf (source : List Char) : Recorder Rejection Node := do
  match lexemes source with
  | .ok ls => return .ofLexemes ls
  | .error rejection =>
    report rejection.notice
    throw rejection

namespace Reading

def ofWalk (w : Walk) : Reading := ⟨w.items, w.fault.map .misshapen⟩

/-- Reads a whole schema text. -/
def ofSource (source : List Char) : StateM Ledger Reading := do
  match ← (treeOf source).run with
  | .error rejection => return ⟨[], some (.rejected rejection)⟩
  | .ok tree => return .ofWalk (← Walk.ofTree source tree)

/-- The schema, if no fault ended the reading. -/
def result (r : Reading) : Except Fault Schema :=
  match r.fault with
  | none => .ok ⟨r.items⟩
  | some fault => .error fault

def records (r : Reading) : List Record :=
  match r.fault with
  | some (.rejected rejection) => [rejection.record]
  | _ => r.items.map Item.record

end Reading

namespace Ledger

def parse (l : Ledger) (source : List Char) : Except Fault Schema × Ledger :=
  let (reading, after) := (Reading.ofSource source).run l
  (reading.result, after)

/-- Builds a schema from a tree that may have been made by hand. -/
def build (l : Ledger) (source : List Char) (root : Node) : Except ShapeFault Schema × Ledger :=
  let (walk, after) := (Walk.ofTree source root).run l
  (walk.result, after)

def parseTree (l : Ledger) (source : List Char) : Except Rejection Node × Ledger :=
  (treeOf source).runOn l

end Ledger

end DalSchema
