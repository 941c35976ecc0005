import DalSchema.Yaml.Fault

/-!
# Reading position

A cursor stands in a text whose line ends are line feeds. It knows the line and the column, because
indentation carries meaning; a byte order mark takes no column.
-/

namespace DalSchema.Yaml

def isBreak (c : Char) : Bool := c == '\n' || c == '\x85' || c == '\u2028' || c == '\u2029'

def isBlankOrTab (c : Char) : Bool := c == ' ' || c == '\t'

/-- Whether a token may end before what follows: the end, a blank or a line break. -/
def separates : Option Char → Bool
  | none => true
  | some c => isBlankOrTab c || isBreak c

def endsLine : Option Char → Bool
  | none => true
  | some c => isBreak c

def endsWord : Option Char → Bool
  | none => true
  | some c => c == ' ' || isBreak c

def isAllowed (c : Char) : Bool :=
  let n := c.toNat
  n == 0x09 || n == 0x0a || n == 0x0d || (0x20 ≤ n && n ≤ 0x7e) || n == 0x85 ||
    (0xa0 ≤ n && n ≤ 0xd7ff) || (0xe000 ≤ n && n ≤ 0xfffd) || 0x10000 ≤ n

structure Cursor where
  rest : List Char
  index : Nat := 0
  line : Nat := 0
  column : Nat := 0
  deriving Repr, DecidableEq, Inhabited

namespace Cursor

def peek (k : Cursor) : Option Char := k.rest.head?

def peekAt (k : Cursor) (n : Nat) : Option Char := k.rest[n]?

def sees (k : Cursor) (c : Char) : Bool := k.peek == some c

def forward (k : Cursor) : Cursor :=
  match k.rest with
  | [] => k
  | c :: rest =>
    if isBreak c then { rest, index := k.index + 1, line := k.line + 1, column := 0 }
    else
      { rest, index := k.index + 1, line := k.line
        column := if c == '\ufeff' then k.column else k.column + 1 }

def advance : Cursor → Nat → Cursor
  | k, 0 => k
  | k, n + 1 => k.forward.advance n

def run (p : Char → Bool) (k : Cursor) : List Char := k.rest.takeWhile p

def skip (p : Char → Bool) (k : Cursor) : Cursor := k.advance (k.run p).length

/-- The line break here, as it is read, and the place after it. -/
def lineBreak? (k : Cursor) : Option (Char × Cursor) :=
  match k.peek with
  | some c =>
    if isBreak c then some (if c == '\x85' then '\n' else c, k.forward) else none
  | none => none

def skipBreak (k : Cursor) : Cursor :=
  match k.lineBreak? with
  | some (_, k') => k'
  | none => k

def skipComment (k : Cursor) : Cursor :=
  if k.sees '#' then k.skip fun c => !isBreak c else k

/-- Whether the three characters from here on are a mark that stands alone. -/
def seesMark (k : Cursor) (mark : Char) : Bool :=
  k.rest.take 3 == [mark, mark, mark] && separates (k.peekAt 3)

def seesDocumentMark (k : Cursor) : Bool := k.seesMark '-' || k.seesMark '.'

end Cursor

end DalSchema.Yaml
