import DalSchema.Diagnostic.Basic

/-!
# The ledger of diagnostics

A ledger belongs to one file and only grows: each entry is appended behind the others, with one
primary label in that file. Whoever reads has the ledger at hand: to report something is to push an
entry, to fail is something else, and one can be done without the other.
-/

namespace DalSchema

structure Ledger where
  fileId : Int := 0
  entries : List Diagnostic := []
  deriving Repr, DecidableEq, Inhabited

namespace Ledger

/-- The entry that a notice of this severity becomes. -/
def entry (l : Ledger) (severity : Severity) (n : Notice) : Diagnostic :=
  { severity
    message := n.message
    labels := [{ fileId := l.fileId, span := n.span, note := n.note }] }

def push (l : Ledger) (severity : Severity) (n : Notice) : Ledger :=
  { l with entries := l.entries ++ [l.entry severity n] }

def hasErrors (l : Ledger) : Bool := l.entries.any fun d => d.severity.isFailure

@[simp] theorem entries_push (l : Ledger) (severity : Severity) (n : Notice) :
    (l.push severity n).entries = l.entries ++ [l.entry severity n] := rfl

@[simp] theorem fileId_push (l : Ledger) (severity : Severity) (n : Notice) :
    (l.push severity n).fileId = l.fileId := rfl

end Ledger

/-- Work with a ledger at hand that may fail. What was reported by then stays in the ledger. -/
abbrev Recorder (ε : Type) : Type → Type := ExceptT ε (StateM Ledger)

def report (n : Notice) : StateM Ledger Unit := modify fun l => l.push .error n

/-- How the work ends, and the ledger it leaves. -/
def Recorder.runOn {ε α : Type} (l : Ledger) (x : Recorder ε α) : Except ε α × Ledger :=
  (ExceptT.run x).run l

end DalSchema
