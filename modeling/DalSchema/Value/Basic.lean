import DalSchema.Text.Quoted
import DalSchema.Value.Moment
import DalSchema.Value.Slots

/-!
# Values

Configuration files and the details attached to a problem hold values of no fixed shape. A record
keeps its keys in the order in which they first came; giving a key again replaces its value. A
collection that contains itself is cut off where it would begin again.
-/

namespace DalSchema

inductive Value where
  | none
  | flag (value : Bool)
  | integer (value : Int)
  | real (value : Binary64)
  | date (value : Date)
  | moment (value : Moment)
  | text (value : String)
  | bytes (value : List UInt8)
  | list (values : List Value)
  | pair (first second : Value)
  | record (entries : List (Value × Value))
  | set (members : List Value)
  /-- A list or a record that has begun further out and not ended yet. -/
  | again (isList : Bool)
  deriving Repr, Inhabited

namespace Value

def call (name : String) (arguments : List String) : String :=
  name ++ "(" ++ ", ".intercalate arguments ++ ")"

/-- How the distance from universal time is shown. Time behind it counts from the day before. -/
def shownAhead (minutes : Int) : String :=
  if minutes == 0 then "datetime.timezone.utc"
  else
    let seconds := "seconds=" ++ toString (minutes % 1440 * 60)
    call "datetime.timezone"
      [call "datetime.timedelta" (if minutes < 0 then ["days=-1", seconds] else [seconds])]

def shownMoment (m : Moment) : String :=
  call "datetime.datetime" (m.parts.map toString ++
    (m.ahead.map fun minutes => "tzinfo=" ++ shownAhead minutes).toList)

/-- The number by which a set finds the slot of a member, if it does not change from run to run. -/
def slotNumber? : Value → Option Int
  | flag value => some (if value then 1 else 0)
  | integer value => some (Slots.ofInt value)
  | real .undefined => Option.none
  | real value => some (Slots.ofBinary64 value)
  | _ => Option.none

def listed (members : List (Value × String)) : List String :=
  match members.mapM fun (member, shown) => member.slotNumber?.map fun n => (n, shown) with
  | some numbered => Slots.order numbered
  | Option.none => members.map Prod.snd

mutual

def shown : Value → String
  | none => "None"
  | flag value => if value then "True" else "False"
  | integer value => toString value
  | real value => value.text
  | date value => call "datetime.date" (value.parts.map toString)
  | moment value => shownMoment value
  | text value => Text.quoted value
  | bytes value => Text.quotedBytes value
  | list values => "[" ++ ", ".intercalate (shownAll values) ++ "]"
  | pair first second => "(" ++ first.shown ++ ", " ++ second.shown ++ ")"
  | record entries => "\x7b" ++ ", ".intercalate (shownEntries entries) ++ "\x7d"
  | set [] => "set()"
  | set members =>
    "\x7b" ++ ", ".intercalate (listed (members.zip (shownAll members))) ++ "\x7d"
  | again isList => if isList then "[...]" else "\x7b...\x7d"

def shownAll : List Value → List String
  | [] => []
  | value :: rest => value.shown :: shownAll rest

def shownEntries : List (Value × Value) → List String
  | [] => []
  | (key, value) :: rest => (key.shown ++ ": " ++ value.shown) :: shownEntries rest

end

def plain : Value → String
  | text value => value
  | date value => value.text
  | moment value => value.text
  | value => value.shown

/-- Whether a value counts as set: zero, the empty and the absent do not. -/
def isSet : Value → Bool
  | none => false
  | flag value => value
  | integer value => value != 0
  | real value => !value.isZero
  | text value => !value.isEmpty
  | bytes value => !value.isEmpty
  | list values => !values.isEmpty
  | record entries => !entries.isEmpty
  | set members => !members.isEmpty
  | date _ | moment _ | pair _ _ | again _ => true

def isKey : Value → Bool
  | list _ | pair _ _ | record _ | set _ | again _ => false
  | _ => true

def keyNumber? : Value → Option Int
  | flag value => some (if value then 1 else 0)
  | integer value => some value
  | real value => value.whole?
  | _ => Option.none

/-- Whether two keys are the same key: numbers by their size, moments by when they are, everything
else by what it is. -/
def sameKey (a b : Value) : Bool :=
  match a.keyNumber?, b.keyNumber? with
  | some m, some n => m == n
  | some _, Option.none | Option.none, some _ => false
  | Option.none, Option.none =>
    match a, b with
    | none, none => true
    | text s, text t => s == t
    | bytes s, bytes t => s == t
    | real x, real y => x == y
    | date d, date e => d == e
    | moment m, moment n => m.isSame n
    | _, _ => false

def assign (key value : Value) : List (Value × Value) → List (Value × Value)
  | [] => [(key, value)]
  | (k, v) :: rest => if k.sameKey key then (k, value) :: rest else (k, v) :: assign key value rest

def recordOf (entries : List (Value × Value)) : List (Value × Value) :=
  entries.foldl (fun acc entry => assign entry.1 entry.2 acc) []

def lookup (key : String) (entries : List (Value × Value)) : Option Value :=
  (entries.find? fun entry => entry.1.sameKey (text key)).map Prod.snd

end Value

end DalSchema
