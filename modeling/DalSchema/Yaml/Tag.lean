import DalSchema.Text.Parts
import DalSchema.Yaml.Timestamp

/-!
# Tags

A tag says what a node is. A scalar without quotes needs none: it may be a flag, a number, a
timestamp or nothing at all, and any other is text. Whole numbers are written in base two, eight,
ten, sixteen or, with colons, sixty; underscores may stand between digits.
-/

namespace DalSchema.Yaml

inductive Tag where
  | none | flag | integer | real | bytes | timestamp | text
  | list | record | set
  | pairs
  /-- The key under which another record is merged. -/
  | merge
  /-- The key of the value that stands for the whole record. -/
  | self
  | unknown
  deriving Repr, DecidableEq, Inhabited

namespace Tag

def lead : String := "tag:yaml.org,2002:"

def names : List (String × Tag) :=
  [("null", none), ("bool", flag), ("int", integer), ("float", real), ("binary", bytes),
    ("timestamp", timestamp), ("str", text), ("seq", list), ("map", record), ("set", set),
    ("omap", pairs), ("pairs", pairs), ("merge", merge), ("value", self)]

def ofName (name : String) : Tag :=
  ((names.find? fun entry => lead ++ entry.1 == name).map Prod.snd).getD unknown

def isCollection (t : Tag) : Bool := [list, pairs, record, set].contains t

/-- The three ways to write a word: small, with a capital, in capitals. -/
def casings (word : String) : List String :=
  [word, word.capitalize, word.map Char.toUpper]

def flagWords : List String := ["yes", "no", "true", "false", "on", "off"].flatMap casings

def isDigitOr (p : Char → Bool) (c : Char) : Bool := p c || c == '_'

def isScored (p : Char → Bool) (cs : List Char) : Bool := !cs.isEmpty && cs.all (isDigitOr p)

def isScoredFrom (first : Char → Bool) : List Char → Bool
  | [] => false
  | c :: rest => first c && rest.all (isDigitOr Char.isDigit)

def isNonzeroDigit (c : Char) : Bool := '1' ≤ c && c ≤ '9'

def isSixtieth : List Char → Bool
  | [d] => d.isDigit
  | [t, d] => '0' ≤ t && t ≤ '5' && d.isDigit
  | _ => false

def isSexagesimal (first : Char → Bool) (cs : List Char) : Bool :=
  match Text.partsAt ':' cs with
  | head :: next :: more => isScoredFrom first head && (next :: more).all isSixtieth
  | _ => false

def isWhole : List Char → Bool
  | '0' :: 'b' :: digits => isScored (fun c => c == '0' || c == '1') digits
  | '0' :: 'x' :: digits => isScored (fun c => (Numeral.digitValue? c).isSome) digits
  | ['0'] => true
  | '0' :: digits => isScored (fun c => '0' ≤ c && c ≤ '7') digits
  | cs => isScoredFrom isNonzeroDigit cs || isSexagesimal isNonzeroDigit cs

def isExponent : List Char → Bool
  | [] => true
  | e :: s :: digits =>
    (e == 'e' || e == 'E') && (s == '-' || s == '+') && !digits.isEmpty && digits.all Char.isDigit
  | _ => false

def isReal (cs : List Char) : Bool :=
  let body := (Numeral.splitSign cs).2
  let signed := body.length != cs.length
  let whole := body.takeWhile (· != '.')
  match body.dropWhile (· != '.') with
  | [] => false
  | _ :: rest =>
    let fraction := rest.takeWhile (isDigitOr Char.isDigit)
    let tail := rest.dropWhile (isDigitOr Char.isDigit)
    if whole.isEmpty then
      (casings "inf").contains (String.ofList rest) ||
        (!signed && (["nan", "NaN", "NAN"].contains (String.ofList rest) ||
          (isScoredFrom Char.isDigit fraction && isExponent tail)))
    else
      (isScoredFrom Char.isDigit whole && isExponent tail) ||
        (isSexagesimal Char.isDigit whole && tail.isEmpty)

def ofLine (line : List Char) : Tag :=
  let word := String.ofList line
  if word == "~" || (casings "null").contains word then none
  else if word == "<<" then merge
  else if word == "=" then self
  else if ["!", "&", "*"].contains word then unknown
  else if flagWords.contains word then flag
  else if isReal line then real
  else if isWhole (Numeral.splitSign line).2 then integer
  else if (Timestamp.ofChars? line).any Timestamp.isEvident then timestamp
  else text

/-- The tag that a scalar needs not carry. A line feed at its end does not count. -/
def ofPlain (word : String) : Tag :=
  let cs := word.toList
  if cs.isEmpty then none
  else if cs == ['\n'] then text
  else if cs.getLast? == some '\n' then ofLine cs.dropLast
  else ofLine cs

end Tag

end DalSchema.Yaml
