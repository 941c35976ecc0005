/-!
# Spans

A span is a half-open range of offsets. Spans of hand-made trees and pushed diagnostics are
arbitrary: they may be negative, reversed or outside the text.
-/

namespace DalSchema

structure Span where
  start : Int
  stop : Int
  deriving Repr, DecidableEq, Inhabited

/-- The empty span at an offset. -/
def Span.point (offset : Int) : Span := ⟨offset, offset⟩

end DalSchema
