/-!
# Faults of a document

Why a document has no value. Most faults are in how the document is written; the others are scalars
that are said to be of a kind and cannot be read as it.
-/

namespace DalSchema.Yaml

inductive Fault where
  | malformed
  /-- A number, a date or a code point does not exist. -/
  | outOfRange
  | tooDeep
  | emptyNumber
  /-- A code point or a part of a number in base sixty is too large for the machine. -/
  | tooLarge
  | unknownFlag
  | unknownDate
  | dateOfRecord
  deriving Repr, DecidableEq, Inhabited

end DalSchema.Yaml
