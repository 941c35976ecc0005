import DalSchema.Text.Lowercase
import DalSchema.Value.Basic
import DalSchema.Yaml.Base64
import DalSchema.Yaml.Tag

/-!
# The values of scalars

A scalar is read as what its tag says. The form that makes a tag needless is stricter than what can
be read: a scalar that carries its tag may be written in other ways too.
-/

namespace DalSchema.Yaml

def flagOf (word : String) : Except Fault Bool :=
  let word := Text.lower word
  if ["yes", "true", "on"].contains word then .ok true
  else if ["no", "false", "off"].contains word then .ok false
  else .error .unknownFlag

def readable {α : Type} : Option α → Except Fault α
  | some a => .ok a
  | none => .error .outOfRange

def sexagesimal (parts : List Int) : Int := parts.foldl (fun n part => n * 60 + part) 0

def magnitudeOf (cs : List Char) : Except Fault Int :=
  match cs with
  | [] => .error .emptyNumber
  | ['0'] => .ok 0
  | '0' :: 'b' :: digits => readable (Numeral.whole? 2 digits)
  | '0' :: 'x' :: digits => readable (Numeral.whole? 16 digits)
  | '0' :: _ => readable (Numeral.whole? 8 cs)
  | _ =>
    if cs.contains ':' then
      (readable ((Text.partsAt ':' cs).mapM (Numeral.whole? 10))).map sexagesimal
    else readable (Numeral.whole? 10 cs)

def wholeOf (text : String) : Except Fault Int :=
  let cs := text.toList.filter (· != '_')
  if cs.isEmpty then .error .emptyNumber
  else
    let (negative, cs) := Numeral.splitSign cs
    (magnitudeOf cs).map fun n => if negative then -n else n

/-- Adds the parts of a number in base sixty, the last first. Each part weighs sixty times as much
as the one before. -/
def realSum (sum : Binary64) (weight : Nat) : List Binary64 → Except Fault Binary64
  | [] => .ok sum
  | part :: rest =>
    match Binary64.ofNat weight with
    | .infinite _ => .error .tooLarge
    | w => realSum (sum.add (part.mul w)) (weight * 60) rest

def realMagnitudeOf (cs : List Char) : Except Fault Binary64 :=
  match String.ofList cs with
  | ".inf" => .ok (.infinite false)
  | ".nan" => .ok .undefined
  | _ =>
    if cs.contains ':' then do
      let parts ← readable ((Text.partsAt ':' cs).mapM Numeral.real?)
      realSum (.zero false) 1 parts.reverse
    else readable (Numeral.real? cs)

def realOf (text : String) : Except Fault Binary64 :=
  let cs := (Text.lower (String.ofList (text.toList.filter (· != '_')))).toList
  if cs.isEmpty then .error .emptyNumber
  else
    let (negative, cs) := Numeral.splitSign cs
    (realMagnitudeOf cs).map fun x => if negative then x.neg else x

def bytesOf (text : String) : Except Fault (List UInt8) :=
  if text.toList.all fun c => c.toNat < 0x80 then
    match Base64.decode text.toList with
    | some bytes => .ok bytes
    | none => .error .malformed
  else .error .malformed

/-- Reads a date or a moment. A line feed at the end does not count. -/
def timestampOf (text : String) : Except Fault Value :=
  let cs := text.toList
  let cs := if cs.getLast? == some '\n' then cs.dropLast else cs
  match Timestamp.ofChars? cs with
  | none => .error .unknownDate
  | some t =>
    match t.time with
    | none => if t.date.isReal then .ok (.date t.date) else .error .outOfRange
    | some time =>
      let m := t.moment time
      if m.isReal then .ok (.moment m) else .error .outOfRange

def scalarValue (tag : Tag) (text : String) : Except Fault Value :=
  match tag with
  | .none => .ok .none
  | .flag => (flagOf text).map .flag
  | .integer => (wholeOf text).map .integer
  | .real => (realOf text).map .real
  | .bytes => (bytesOf text).map .bytes
  | .timestamp => timestampOf text
  | .text => .ok (.text text)
  | .list | .record | .set | .pairs | .merge | .self | .unknown => .error .malformed

end DalSchema.Yaml
