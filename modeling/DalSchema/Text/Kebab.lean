import DalSchema.Text.Lowercase
import DalSchema.Text.Spacing

/-!
# Kebab case

`kebab` writes a name as lower-case words joined by hyphens. A word begins at a capital after a
small letter or digit, at the last capital of a run that a small letter follows, and after any run
of hyphens, underscores and white space.
-/

namespace DalSchema.Text

def splitAtCapitals : List Char → List Char
  | a :: b :: rest =>
    if (a.isLower || a.isDigit) && b.isUpper then a :: '-' :: splitAtCapitals (b :: rest)
    else a :: splitAtCapitals (b :: rest)
  | cs => cs

/-- Puts a hyphen before the last capital of a run that a small letter follows. -/
def splitAfterAcronyms : List Char → List Char
  | a :: b :: c :: rest =>
    if a.isUpper && b.isUpper && c.isLower then a :: '-' :: splitAfterAcronyms (b :: c :: rest)
    else a :: splitAfterAcronyms (b :: c :: rest)
  | cs => cs

def isWordBreak (c : Char) : Bool := c == '-' || c == '_' || isSpace c

/-- Writes each run of word breaks as one hyphen; `inBreak` says that such a run is being read. -/
def joinBreaks (inBreak : Bool) : List Char → List Char
  | [] => []
  | c :: rest =>
    if isWordBreak c then
      if inBreak then joinBreaks true rest else '-' :: joinBreaks true rest
    else c :: joinBreaks false rest

def trimHyphens (cs : List Char) : List Char :=
  ((cs.dropWhile (· == '-')).reverse.dropWhile (· == '-')).reverse

def kebab (name : String) : String :=
  String.ofList (lowerAfter []
    (trimHyphens (joinBreaks false (splitAfterAcronyms (splitAtCapitals name.toList)))))

end DalSchema.Text
