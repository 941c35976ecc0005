/-!
# Parts of a text

A separator divides a text into parts: one more than the separators in it, so that even the empty
text has one.
-/

namespace DalSchema.Text

/-- What stands between the separators of a text. -/
def partsAt (separator : Char) : List Char → List (List Char)
  | [] => [[]]
  | c :: rest =>
    if c == separator then [] :: partsAt separator rest
    else match partsAt separator rest with
      | [] => [[c]]
      | first :: others => (c :: first) :: others

end DalSchema.Text
