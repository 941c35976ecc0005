import DalSchema.Compile.Response
import DalSchema.Reading
import DalSchema.Render.Format

/-!
# Checking and compiling

To check a source is to read it; to compile it is to read it and render the schema. Either way a
fault in the source is no failure of the call: the outcome carries the response and the diagnostics.
An unknown format is refused before the source is looked at.
-/

namespace DalSchema

open Log

/-- What a check or a compilation gives. A check has no format and no output. -/
structure Outcome where
  success : Bool
  format : Option String := none
  fileName : String
  output : Option String := none
  error : Option Response := none
  diagnostics : List Diagnostic := []
  itemCount : Nat := 0
  timestamp : String
  deriving Repr, Inhabited

namespace Outcome

def summaryLine (success : Bool) (format : Option String) (fileName : String) (itemCount : Int)
    (diagnosticCount : Nat) (failure : Option String) : String :=
  if success then
    match format with
    | none => fileName ++ ": " ++ toString itemCount ++ " item(s) parsed"
    | some f => fileName ++ ": " ++ toString itemCount ++ " item(s) rendered as " ++ f
  else
    fileName ++ ": failed (" ++ toString diagnosticCount ++ " diagnostic(s)): " ++
      failure.getD "unknown error"

def summary (o : Outcome) : String :=
  summaryLine o.success o.format o.fileName o.itemCount o.diagnostics.length
    (o.error.map Response.message)

end Outcome

def inlineName : String := "<inline>"

def failedOutcome (around : Surroundings) (problem : Problem) (diagnostics : List Diagnostic)
    (fileName : String) (format : Option String) : Logged Outcome :=
  let circumstance : Circumstance := { stage := "parse", fileName, format }
  let response :=
    Response.ofProblem problem circumstance diagnostics around.clock.answered (around.trace problem)
  { value :=
      { success := false
        format
        fileName
        error := some response
        diagnostics
        timestamp := around.clock.handed }
    records := problem.records circumstance .warning }

/-- Reads a source with a ledger of its own: the schema, or the outcome that says why there is none.
The records are those of the reading. -/
def parseStage (around : Surroundings) (source : List Char) (fileName : String)
    (format : Option String) : Logged (Except (Logged Outcome) Schema) :=
  let (reading, ledger) := (Reading.ofSource source).run {}
  { value := reading.result.mapError fun fault =>
      failedOutcome around (fault.problem source) ledger.entries fileName format
    records := reading.records }

def checkSource (around : Surroundings) (source : List Char) (fileName : String) :
    Logged Outcome :=
  let stage := parseStage around source fileName none
  match stage.value with
  | .error failed => { failed with records := stage.records ++ failed.records }
  | .ok schema =>
    let outcome : Outcome :=
      { success := true, fileName, itemCount := schema.items.length,
        timestamp := around.clock.handed }
    { value := outcome
      records := stage.records ++ [⟨.debug, compilerLogger, outcome.summary⟩] }

def compileAs (around : Surroundings) (source : List Char) (selector : String) (format : Format)
    (fileName : String) (options : RustOptions) : Except (RenderFault Empty) (Logged Outcome) := do
  let stage := parseStage around source fileName (some selector)
  match stage.value with
  | .error failed => return { failed with records := stage.records ++ failed.records }
  | .ok schema =>
    let output ← format.render options schema
    return {
      value :=
        { success := true
          format := some selector
          fileName
          output := some output
          itemCount := schema.items.length
          timestamp := around.clock.handed }
      records := stage.records ++ format.records options schema }

def compileSource (around : Surroundings) (source : List Char) (selector : String)
    (fileName : String) (options : RustOptions) :
    Except (RenderFault Empty) (Logged Outcome) :=
  match Format.ofName? selector with
  | none => .error (.invalidFormat selector)
  | some format => compileAs around source selector format fileName options

end DalSchema
