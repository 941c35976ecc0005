/-!
# Log records

A record is a message with a level and the name of the logger it came from. Levels are numbers. Six
of them have names; the lowest of these stands for no level at all. A record passes a threshold when
its level is at least as high.
-/

namespace DalSchema

namespace Log

structure Level where
  rank : Int
  deriving Repr, DecidableEq, Inhabited

namespace Level

def notSet : Level := ⟨0⟩
def debug : Level := ⟨10⟩
def info : Level := ⟨20⟩
def warning : Level := ⟨30⟩
def error : Level := ⟨40⟩
def critical : Level := ⟨50⟩

def named : List (String × Level) :=
  [("NOTSET", notSet), ("DEBUG", debug), ("INFO", info), ("WARNING", warning), ("ERROR", error),
    ("CRITICAL", critical)]

/-- The name of a level, or its number if it has none. -/
def word (l : Level) : String :=
  match named.find? fun entry => entry.2 == l with
  | some (name, _) => name
  | none => "Level " ++ toString l.rank

/-- The levels of records. -/
def all : List Level := [debug, info, warning, error, critical]

def reaches (l least : Level) : Bool := least.rank ≤ l.rank

end Level

structure Record where
  level : Level
  logger : String
  message : String
  deriving Repr, DecidableEq, Inhabited

/-- The names of the loggers. -/
def readerLogger : String := "dalgen.utils.dsl.parser"
def builderLogger : String := "dalgen.utils.dsl.builder"
def compilerLogger : String := "dalgen.utils.dsl.pipeline"
def responseLogger : String := "dalgen.utils.error_handling.handlers"
def sqlLogger : String := "dalgen.generators.base"
def rustLogger : String := "dalgen.generators.rust"
def commandLogger : String := "dalgen.cli"
def setupLogger : String := "dalgen.utils.logging.setup"
def environmentLogger : String := "dotenv.main"

/-- The records at or above a level. -/
def atLeast (threshold : Level) (records : List Record) : List Record :=
  records.filter fun r => r.level.reaches threshold

end Log

/-- A result together with the records left on the way to it. -/
structure Logged (α : Type) where
  value : α
  records : List Log.Record := []
  deriving Repr, Inhabited

end DalSchema
