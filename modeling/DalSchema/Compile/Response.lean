import DalSchema.Diagnostic.Basic
import DalSchema.Log.Record
import DalSchema.Problem
import DalSchema.Value.Basic

/-!
# Error responses

A response tells a caller about a problem: what it is, when it was answered, at which stage it
arose, and the diagnostics found so far. A problem that had been raised also comes with the end of
its trace. Handling a problem logs it and gives the response, or wraps the problem in an error that
names the stage.
-/

namespace DalSchema

open Log

/-- Where a problem arose. An empty name counts as none. -/
structure Circumstance where
  stage : String
  fileName : Option String := none
  format : Option String := none
  extra : List (String × Value) := []
  deriving Repr, Inhabited

def Circumstance.extraRecord (c : Circumstance) : Value :=
  .record (c.extra.map fun detail => (.text detail.1, detail.2))

def nonEmpty (text : Option String) : Option String := text.filter fun t => !t.isEmpty

structure Response where
  problem : Problem
  stage : String
  timestamp : String
  fileName : Option String
  format : Option String
  diagnostics : List Diagnostic
  traceback : Option String
  extra : List (String × Value)
  deriving Repr, Inhabited

namespace Response

def kind (r : Response) : String := r.problem.kind

def message (r : Response) : String := r.problem.message

def span? (r : Response) : Option (String × Span) :=
  match r.problem with
  | .unexpectedPair text span => some (text, span)
  | _ => none

def token? (r : Response) : Option String :=
  match r.problem with
  | .invalidAction phrase => some phrase
  | _ => none

/-- The end of a trace: its last 500 characters. -/
def lastPart (trace : String) : String :=
  String.ofList (trace.toList.drop (trace.length - 500))

def ofProblem (p : Problem) (c : Circumstance) (diagnostics : List Diagnostic) (time : String)
    (trace : Option String) : Response where
  problem := p
  stage := c.stage
  timestamp := time
  fileName := nonEmpty c.fileName
  format := nonEmpty c.format
  diagnostics := diagnostics
  traceback := trace.map lastPart
  extra := c.extra

end Response

/-- The level a caller asks for by name; a name other than these two means an error. -/
def levelFor : String → Level
  | "critical" => .critical
  | "warning" => .warning
  | _ => .error

def Problem.records (p : Problem) (c : Circumstance) (level : Level) : List Record :=
  let parts := ["Error during " ++ c.stage] ++
    ((nonEmpty c.fileName).map fun name => "File: " ++ name).toList ++
    ((nonEmpty c.format).map fun format => "Format: " ++ format).toList
  ⟨level, responseLogger, " | ".intercalate parts ++ ": " ++ p.message⟩ ::
    if c.extra.isEmpty then []
    else [⟨.debug, responseLogger, "Additional context: " ++ c.extraRecord.shown⟩]

structure StageError where
  problem : Problem
  stage : String
  deriving Repr, DecidableEq, Inhabited

def StageError.message (e : StageError) : String := "[" ++ e.stage ++ "] " ++ e.problem.message

/-- Answers a problem, or passes it on wrapped if `reraise` is set. -/
def Problem.handle (p : Problem) (c : Circumstance) (diagnostics : List Diagnostic) (time : String)
    (trace : Option String) (reraise : Bool) : Except StageError Response :=
  if reraise then .error ⟨p, c.stage⟩ else .ok (.ofProblem p c diagnostics time trace)

end DalSchema
