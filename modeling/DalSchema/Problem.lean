import DalSchema.Text.Quoted
import DalSchema.Text.Span

/-!
# Problems

A problem is the cause of a failure as callers see it. Each has a kind, by which responses name it,
and a message. What else is told of it is up to the surroundings: what the clock shows, and how the
path of calls is shown that a problem was raised from.
-/

namespace DalSchema

inductive Problem where
  | endOfStream
  | unexpectedPair (text : String) (span : Span)
  | invalidAction (phrase : String)
  | grammar (headline : String) (line column : Option Int) (found : Option String)
      (expected : Option (List String))
  | invalidFormat (name : String)
  /-- A token was walked as if it had children. -/
  | childless
  /-- Reading failed for a reason that carries no text. -/
  | parse
  /-- Rendering failed for a reason that carries no text. -/
  | render
  | value (message : String)
  | system (message : String)
  deriving Repr, DecidableEq, Inhabited

namespace Problem

def kind : Problem → String
  | endOfStream => "UnexpectedEOS"
  | unexpectedPair _ _ => "UnexpectedPair"
  | invalidAction _ => "InvalidAction"
  | grammar _ _ _ _ _ => "GrammarError"
  | invalidFormat _ => "InvalidFormat"
  | childless => "AttributeError"
  | parse => "ParseError"
  | render => "RenderError"
  | value _ => "ValueError"
  | system _ => "OSError"

/-- The lines of a grammar message: each part is left out when it is absent or empty. -/
def grammarLines (headline : String) (line column : Option Int) (found : Option String)
    (expected : Option (List String)) : List String :=
  ["Parse error: " ++ headline] ++
    (match line, column with
      | some l, some c => ["Location: line " ++ toString l ++ ", column " ++ toString c]
      | _, _ => []) ++
    (match found with
      | some text => if text.isEmpty then [] else ["Found: " ++ Text.quoted text]
      | none => []) ++
    (match expected with
      | some (first :: rest) => ["Expected one of: " ++ ", ".intercalate (first :: rest)]
      | _ => [])

def message : Problem → String
  | endOfStream => "Unexpected end of stream"
  | unexpectedPair text span =>
    "Unexpected pair in stream: `" ++ text ++ "` at " ++ toString span.start ++ ".." ++
      toString span.stop
  | invalidAction phrase => "`" ++ phrase ++ "` is not a valid action"
  | grammar headline line column found expected =>
    "\n".intercalate (grammarLines headline line column found expected)
  | invalidFormat name => "`" ++ name ++ "` is not a valid format type"
  | childless | parse | render => ""
  | value message | system message => message

end Problem

/-- What the clock shows when a problem is answered, and when the outcome is handed over. -/
structure Clock where
  answered : String := ""
  handed : String := ""
  deriving Repr, DecidableEq, Inhabited

structure Surroundings where
  clock : Clock := {}
  trace : Problem → String := fun _ => ""

end DalSchema
