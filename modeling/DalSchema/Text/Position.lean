import DalSchema.Text.Parts

/-!
# Lines and columns

Offsets count characters. Only the line feed ends a line; a carriage return before it belongs to the
line but is not displayed. Lines and columns are counted from one.
-/

namespace DalSchema.Text

def lines (source : List Char) : List (List Char) := partsAt '\n' source

structure Position where
  line : Nat
  column : Nat
  deriving Repr, DecidableEq, Inhabited

/-- An offset moved into the text: a negative one to its start, a large one to its end. -/
def clampOffset (source : List Char) (offset : Int) : Nat := min offset.toNat source.length

def positionAfter (before : List Char) : Position where
  line := before.count '\n' + 1
  column := (before.reverse.takeWhile (· != '\n')).length + 1

def positionAt (source : List Char) (offset : Int) : Position :=
  positionAfter (source.take (clampOffset source offset))

def trimReturns (line : List Char) : List Char :=
  (line.reverse.dropWhile (· == '\r')).reverse

def lineText (source : List Char) (line : Nat) : List Char :=
  if line == 0 then [] else ((lines source)[line - 1]?.map trimReturns).getD []

/-- Reads every line end (line feed, carriage return, or the two together) as one line feed. -/
def unifyLineEnds : List Char → List Char
  | [] => []
  | '\r' :: '\n' :: rest => '\n' :: unifyLineEnds rest
  | c :: rest => (if c == '\r' then '\n' else c) :: unifyLineEnds rest

end DalSchema.Text
