import DalSchema.Log.Record

/-!
# Layouts of log lines

A record is written on a line of its own, either with its level, logger and message, or also with
the time and the place it came from.
-/

namespace DalSchema.Log

inductive Layout where
  | simple | detailed
  deriving Repr, DecidableEq, Inhabited

structure Stamp where
  time : String
  place : String
  deriving Repr, DecidableEq, Inhabited

namespace Layout

def name : Layout → String
  | simple => "simple"
  | detailed => "detailed"

def ofName? (name : String) : Option Layout := [simple, detailed].find? fun l => l.name == name

/-- Any name but the one of the detailed layout asks for the simple one. -/
def ofName (name : String) : Layout := (ofName? name).getD simple

def padded (word : String) : String := word ++ String.ofList (List.replicate (8 - word.length) ' ')

def line (stamp : Stamp) (r : Record) : Layout → String
  | simple => " | ".intercalate [r.level.word, r.logger, r.message] ++ "\n"
  | detailed =>
    " | ".intercalate
      [stamp.time, padded r.level.word, r.logger, stamp.place, r.message] ++ "\n"

end Layout

end DalSchema.Log
