import DalSchema.Text.Span

/-!
# Diagnostics

A diagnostic is a message with a severity, labels that point into source files, and free notes. Its
main label is the first primary one, or the first of all when none is primary.
-/

namespace DalSchema

inductive Severity where
  | bug | error | warning | note | help
  deriving Repr, DecidableEq, Inhabited

namespace Severity

def word : Severity → String
  | bug => "bug"
  | error => "error"
  | warning => "warning"
  | note => "note"
  | help => "help"

def all : List Severity := [bug, error, warning, note, help]

def ofWord? (word : String) : Option Severity := all.find? fun s => s.word == word

/-- Whether a diagnostic of this severity means that something is broken. -/
def isFailure : Severity → Bool
  | bug | error => true
  | warning | note | help => false

end Severity

inductive LabelStyle where
  | primary
  | secondary
  deriving Repr, DecidableEq, Inhabited

namespace LabelStyle

def word : LabelStyle → String
  | primary => "primary"
  | secondary => "secondary"

def ofWord? : String → Option LabelStyle
  | "primary" => some primary
  | "secondary" => some secondary
  | _ => none

/-- The character that underlines a label. -/
def marker : LabelStyle → Char
  | primary => '^'
  | secondary => '-'

end LabelStyle

/-- A span in one file with a short note on it. -/
structure Label where
  fileId : Int
  span : Span
  note : String := ""
  style : LabelStyle := .primary
  deriving Repr, DecidableEq, Inhabited

structure Diagnostic where
  severity : Severity
  message : String
  labels : List Label := []
  notes : List String := []
  deriving Repr, DecidableEq, Inhabited

def Diagnostic.mainLabel? (d : Diagnostic) : Option Label :=
  (d.labels.find? fun l => l.style == .primary).or d.labels.head?

/-- What is to be recorded about a problem, before it is known in which file. -/
structure Notice where
  message : String
  span : Span
  note : String
  deriving Repr, DecidableEq, Inhabited

end DalSchema
