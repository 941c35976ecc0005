import DalSchema.Grammar.Scan
import DalSchema.Text.Position

/-!
# Counting lines while reading

A tally moves on piece by piece with what is read: the blanks before a lexeme, then the text of the
lexeme. Line feeds are looked for only in the texts of terminals whose pattern leaves room for one.
-/

namespace DalSchema

/-- Whether line feeds are looked for in the texts of a terminal. A pattern that only says which
characters it does not take counts as one that takes line feeds. -/
def Terminal.mayBreak : Terminal → Bool
  | .columnType | .defaultValue | .comment | .blanks => true
  | _ => false

structure Tally where
  offset : Nat := 0
  line : Nat := 1
  lineStart : Nat := 0
  deriving Repr, DecidableEq, Inhabited

namespace Tally

def feed (n : Tally) (t : Terminal) (text : List Char) : Tally :=
  let breaks := if t.mayBreak then text.count '\n' else 0
  { offset := n.offset + text.length
    line := n.line + breaks
    lineStart :=
      if breaks = 0 then n.lineStart
      else n.offset + (text.length - (text.reverse.takeWhile (· != '\n')).length) }

def position (n : Tally) : Text.Position := ⟨n.line, n.offset - n.lineStart + 1⟩

def skipBlanks (n : Tally) (cs : List Char) : Tally := n.feed .blanks (cs.takeWhile Text.isBlank)

/-- The tally where reading from place `p` stops, the characters left being `cs`. -/
def whenStopped (p : Place) (n : Tally) (cs : List Char) : Tally :=
  match _found : p.step n.offset cs with
  | .ok (.lexeme l q rest) => whenStopped q ((n.skipBlanks cs).feed l.terminal l.text) rest
  | .ok .finished => n.skipBlanks cs
  | .error _ => n.skipBlanks cs
termination_by cs.length
decreasing_by exact Place.step_length_lt _found

end Tally

def stopPosition (source : List Char) : Text.Position :=
  (Tally.whenStopped (.top false) {} source).position

end DalSchema
