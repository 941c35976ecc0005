/-!
# White space

Two classes of white space matter. `isBlank` holds of the five characters that may stand between two
tokens of a schema text. `isSpace` holds of every Unicode white space character; one that is no
blank can begin no token at all.
-/

namespace DalSchema.Text

def isBlank (c : Char) : Bool :=
  c == ' ' || c == '\t' || c == '\x0c' || c == '\r' || c == '\n'

/-- Unicode white space, the four information separators included. -/
def isSpace (c : Char) : Bool :=
  let n := c.toNat
  (0x09 ≤ n && n ≤ 0x0d) || (0x1c ≤ n && n ≤ 0x20) || n == 0x85 || n == 0xa0 || n == 0x1680 ||
    (0x2000 ≤ n && n ≤ 0x200a) || n == 0x2028 || n == 0x2029 || n == 0x202f || n == 0x205f ||
    n == 0x3000

end DalSchema.Text
